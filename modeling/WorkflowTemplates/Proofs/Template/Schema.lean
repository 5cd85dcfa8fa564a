import Mathlib.Data.List.Forall2
import WorkflowTemplates.Proofs.Names
import WorkflowTemplates.Proofs.Outcome
import WorkflowTemplates.Template.Compiled

/-!
# Schemas of templates

The input parameters of a template are those of its declarations, one by one, and exist exactly if
the declared names are distinct and every default has an encoding (`buildAfter_eq_ok`). So one input
parameter has the name of a declaration (`filter_name_eq`), and the name is looked up to the
declared type (`declaredType?_eq`).

A compilation succeeds exactly if all of its phases do (`compile_eq_ok`), and without hooks the
compiled template is what the definition says (`compilesPlain`).
-/

namespace WorkflowTemplates

/-- The parameter of a declaration is made from the encoding of its default (`toParameter`). -/
theorem buildParameter_eq_ok {d : Declaration} {p : Parameter} :
    d.buildParameter = .ok p ↔ ∃ e, d.encodeDefault = .ok e ∧ d.toParameter e = p := by
  unfold Declaration.buildParameter
  split
  · next e h => simp [h]
  · next e h => simp [h]

/-- The parameter of a declaration has its name, whatever its default is. -/
theorem name_of_buildParameter {d : Declaration} {p : Parameter}
    (h : d.buildParameter = .ok p) : p.name = d.name := by
  obtain ⟨e, -, rfl⟩ := buildParameter_eq_ok.1 h
  unfold Declaration.toParameter
  split <;> rfl

/-- **The schema, one by one.** Declarations behind the names `seen` become parameters exactly if
their names are new and distinct, and each of them becomes one (`buildParameter`). The induction
over the declarations carries the names that were seen. -/
theorem buildAfter_eq_ok {ds : List Declaration} {seen : List String} {ps : List Parameter} :
    buildAfter seen ds = .ok ps ↔
      (∀ d ∈ ds, d.name ∉ seen) ∧ (ds.map (·.name)).Nodup
        ∧ List.Forall₂ (fun d p => d.buildParameter = .ok p) ds ps := by
  induction ds generalizing seen ps with
  | nil =>
    rw [buildAfter, Except.ok.injEq, List.forall₂_nil_left_iff]
    exact ⟨fun h => ⟨fun _ hd => absurd hd List.not_mem_nil, .nil, h.symm⟩, fun h => h.2.2.symm⟩
  | cons d rest ih =>
    by_cases hd : d.name ∈ seen
    · rw [buildAfter, if_pos hd]
      exact ⟨nofun, fun h => absurd hd (h.1 d List.mem_cons_self)⟩
    rw [buildAfter, if_neg hd, bind_eq_ok, List.map_cons, List.nodup_cons]
    constructor
    -- A name of the rest is not among those seen and is not the first name, since both are looked
    -- up together.
    · rintro ⟨p, hp, h⟩
      obtain ⟨ps', hps, h⟩ := bind_eq_ok.1 h
      cases h
      obtain ⟨hnew, hnodup, hall⟩ := ih.1 hps
      refine ⟨?_, ⟨fun hm => ?_, hnodup⟩, .cons hp hall⟩
      · intro d' hd'
        rcases List.mem_cons.1 hd' with rfl | hd'
        · exact hd
        · exact fun hm => hnew d' hd' (List.mem_cons_of_mem _ hm)
      · obtain ⟨d', hd', hname⟩ := List.mem_map.1 hm
        exact hnew d' hd' (hname ▸ List.mem_cons_self)
    · rintro ⟨hnew, ⟨hname, hnodup⟩, hall⟩
      cases hall with
      | @cons _ p _ ps' hp hall =>
      refine ⟨p, hp, bind_eq_ok.2 ⟨ps', ih.2 ⟨?_, hnodup, hall⟩, rfl⟩⟩
      intro d' hd' hm
      rcases List.mem_cons.1 hm with hm | hm
      · exact hname (List.mem_map.2 ⟨d', hd', hm⟩)
      · exact hnew d' (List.mem_cons_of_mem _ hd') hm

/-- Among declarations of distinct names a name is looked up to the type of its own declaration
(`declaredType?`). -/
theorem declaredType?_eq {ds : List Declaration} (h : (ds.map (·.name)).Nodup)
    {d : Declaration} (hd : d ∈ ds) : declaredType? ds d.name = some d.type := by
  rw [declaredType?, find?_name_eq h hd]
  rfl

/-- Parameters have the names of their declarations, in their order. -/
theorem map_name_eq {ds : List Declaration} {ps : List Parameter}
    (h : List.Forall₂ (fun d p => d.buildParameter = .ok p) ds ps) :
    ps.map (·.name) = ds.map (·.name) := by
  induction h with
  | nil => rfl
  | cons hp _ ih => rw [List.map_cons, List.map_cons, ih, name_of_buildParameter hp]

/-- Among the parameters of declarations of distinct names, the one of a declaration is the only one
of its name, so filtering by the name finds just it. -/
theorem filter_name_eq {ds : List Declaration} {ps : List Parameter}
    (hall : List.Forall₂ (fun d p => d.buildParameter = .ok p) ds ps)
    (h : (ds.map (·.name)).Nodup) {d : Declaration} (hd : d ∈ ds) :
    ∃ p, d.buildParameter = .ok p ∧ ps.filter (·.name = d.name) = [p] := by
  induction hall with
  | nil => cases hd
  | @cons first p rest ps hp hall ih =>
    rw [List.map_cons, List.nodup_cons] at h
    have hname := name_of_buildParameter hp
    rcases List.mem_cons.1 hd with rfl | hd
    · refine ⟨p, hp, ?_⟩
      rw [List.filter_cons_of_pos (by simpa using hname), List.filter_eq_nil_iff.2]
      intro q hq he
      rw [← map_name_eq hall, ← of_decide_eq_true he] at h
      exact h.1 (List.mem_map_of_mem hq)
    · have hne : p.name ≠ d.name := fun e => h.1 (hname ▸ e ▸ List.mem_map_of_mem hd)
      rw [List.filter_cons_of_neg (by simpa using hne)]
      exact ih h.2 hd

/-! ## Compilation -/

/-- A chain without hooks changes nothing of a template. -/
theorem HookChain.apply_of_nil {c : HookChain} (h : c.hooks = []) (t : Template) :
    c.apply t = t := by
  rw [apply, h, List.foldl_nil]

namespace TemplateDefinition

/-- A compilation succeeds exactly if all of its phases do: the schema, the name, the manifest, and
at last the validation of what the hooks made of them. The template is then what the hooks made. -/
theorem compile_eq_ok {t : TemplateDefinition} {c : CompiledTemplate} :
    t.compile = .ok c ↔
      ∃ inputs manifest, buildParameters t.parameters = .ok inputs ∧ t.checkName = .ok ()
        ∧ t.resolveManifest = .ok manifest ∧ c.template.validate = .ok ()
        ∧ c = ⟨t.hooks.apply { name := t.name, inputs, manifest }, t.parameters⟩ := by
  unfold compile
  rw [bind_eq_ok]
  constructor
  · rintro ⟨inputs, hinputs, h⟩
    obtain ⟨⟨⟩, hname, h⟩ := bind_eq_ok.1 h
    obtain ⟨manifest, hmanifest, h⟩ := bind_eq_ok.1 h
    dsimp only at h
    split at h
    · next hvalid =>
      cases h
      exact ⟨inputs, manifest, hinputs, hname, hmanifest, hvalid, rfl⟩
    · cases h
  · rintro ⟨inputs, manifest, hinputs, hname, hmanifest, hvalid, rfl⟩
    refine ⟨inputs, hinputs, bind_eq_ok.2 ⟨(), hname, bind_eq_ok.2 ⟨manifest, hmanifest, ?_⟩⟩⟩
    dsimp only at hvalid ⊢
    rw [hvalid]

/-- What a definition without hooks is compiled to: the declared names are distinct, and the input
parameters are those of the declarations, each built by `buildParameter`. -/
structure CompilesPlain (t : TemplateDefinition) (c : CompiledTemplate) : Prop where
  name : c.name = t.name
  declarations : c.declarations = t.parameters
  distinct : (t.parameters.map (·.name)).Nodup
  inputs : List.Forall₂ (fun d p => d.buildParameter = .ok p) t.parameters c.template.inputs

/-- Without hooks a compilation that succeeds changes neither the name nor the parameters
(`CompilesPlain`). -/
theorem compilesPlain {t : TemplateDefinition} {c : CompiledTemplate} (hooks : t.hooks.hooks = [])
    (h : t.compile = .ok c) : CompilesPlain t c := by
  obtain ⟨inputs, manifest, hinputs, -, -, -, rfl⟩ := compile_eq_ok.1 h
  obtain ⟨-, hdistinct, hall⟩ := buildAfter_eq_ok.1 hinputs
  have happly := HookChain.apply_of_nil hooks { name := t.name, inputs, manifest }
  exact ⟨by rw [CompiledTemplate.name, happly], rfl, hdistinct, by rwa [happly]⟩

/-- Without hooks the manifest of the compiled template is the one that was given or produced
(`resolveManifest`). -/
theorem resolveManifest_of_compile {t : TemplateDefinition} {c : CompiledTemplate}
    (hooks : t.hooks.hooks = []) (h : t.compile = .ok c) :
    t.resolveManifest = .ok c.template.manifest := by
  obtain ⟨inputs, manifest, -, -, hmanifest, -, rfl⟩ := compile_eq_ok.1 h
  rw [HookChain.apply_of_nil hooks, hmanifest]

end TemplateDefinition

end WorkflowTemplates
