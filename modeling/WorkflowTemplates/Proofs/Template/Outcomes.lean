import WorkflowTemplates.Proofs.Template.Schema
import WorkflowTemplates.Proofs.Value.Encoded

/-!
# The outcomes of a compilation

A definition whose declared names are distinct, whose name is not blank and whose manifest is there
has few outcomes without hooks (`TemplateDefinition.compile_of_distinct`): a default has no
encoding, or a parameter has an empty name, or the template is compiled. Its input parameters are
then what the declarations become (`Declaration.Becomes`).
-/

namespace WorkflowTemplates

variable {d : Declaration} {ds : List Declaration} {ps : List Parameter} {seen : List String}

/-! ## One declaration -/

/-- The input parameter that a declaration becomes. A caller must supply it if there is no default,
and the closed set of its values is that of the declared type; it has a default or a source, not
both. -/
structure Declaration.Becomes (d : Declaration) (p : Parameter) : Prop where
  name : p.name = d.name
  required : p.isRequired = true ↔ d.default = none
  allowed (values : List String) : p.allowed = some values ↔ d.type = .choice values
  one_source : p.default = none ∨ p.valueFrom = none

/-- A default that is encoded is encoded as something, and only where there is none nothing comes
out. -/
theorem encodeDefault_eq_none_iff {e : Option Encoded} (h : d.encodeDefault = .ok e) :
    e = none ↔ d.default = none := by
  unfold Declaration.encodeDefault at h
  split at h
  · next hd =>
    cases h
    exact iff_of_true rfl hd
  · next value hd =>
    obtain ⟨encoded, -, rfl⟩ := map_eq_ok.1 h
    exact iff_of_false nofun (hd ▸ nofun)

/-- A default that has no encoding is reported under the name of its declaration
(`EncodingError.parameter`). -/
theorem parameter_of_encodeDefault {e : EncodingError} (h : d.encodeDefault = .error e) :
    e.parameter = d.name := by
  unfold Declaration.encodeDefault at h
  split at h
  · cases h
  · exact (encode_eq_error.1 (map_eq_error.1 h)).1

/-- The closed set of a type is there exactly if the type is one (`TypeTag.choice`), and has its
values in their order. -/
theorem choices?_eq_some_iff {t : TypeTag} {values : List String} :
    t.choices? = some values ↔ t = .choice values := by
  cases t <;> simp [TypeTag.choices?]

/-- The input parameter of a declaration is what the declaration becomes (`Becomes`). -/
theorem becomes_of_buildParameter {p : Parameter} (h : d.buildParameter = .ok p) :
    d.Becomes p := by
  have hname := name_of_buildParameter h
  obtain ⟨e, he, rfl⟩ := buildParameter_eq_ok.1 h
  have hnone := encodeDefault_eq_none_iff he
  cases e with
  | none => exact ⟨hname, iff_of_true rfl (hnone.1 rfl), fun _ => choices?_eq_some_iff, .inl rfl⟩
  | some encoded =>
    have hdefault : d.default ≠ none := fun hd => nomatch hnone.2 hd
    cases encoded with
    | literal text =>
      exact ⟨hname, iff_of_false nofun hdefault, fun _ => choices?_eq_some_iff, .inr rfl⟩
    | reference v =>
      exact ⟨hname, iff_of_false nofun hdefault, fun _ => choices?_eq_some_iff, .inl rfl⟩

/-! ## All declarations -/

/-- Declarations of new (`hnew`) and distinct names become parameters, unless a default has no
encoding. -/
theorem buildAfter_of_distinct (hnew : ∀ d ∈ ds, d.name ∉ seen)
    (hdistinct : (ds.map (·.name)).Nodup) :
    (∃ d ∈ ds, ∃ e, d.encodeDefault = .error e ∧ buildAfter seen ds = .error (.encoding e))
      ∨ ∃ ps, buildAfter seen ds = .ok ps := by
  induction ds generalizing seen with
  | nil => exact .inr ⟨[], rfl⟩
  | cons d rest ih =>
    rw [List.map_cons, List.nodup_cons] at hdistinct
    have hrest := name_notMem_cons hnew hdistinct.1
    rw [buildAfter, if_neg (hnew d List.mem_cons_self)]
    cases he : d.encodeDefault with
    | error e =>
      have hbuild : d.buildParameter = .error (.encoding e) := by
        rw [Declaration.buildParameter, he]
      exact .inl ⟨d, List.mem_cons_self, e, he, by rw [hbuild]; rfl⟩
    | ok encoded =>
      have hbuild : d.buildParameter = .ok (d.toParameter encoded) :=
        buildParameter_eq_ok.2 ⟨encoded, he, rfl⟩
      rcases ih hrest hdistinct.2 with ⟨d', hd', e, he', hafter⟩ | ⟨ps, hafter⟩
      · exact .inl ⟨d', List.mem_cons_of_mem _ hd', e, he', by rw [hbuild, hafter]; rfl⟩
      · exact .inr ⟨d.toParameter encoded :: ps, by rw [hbuild, hafter]; rfl⟩

/-- Parameters of new and distinct names, each with one source at most (`hsource`), are rejected
only for an empty name. -/
theorem validateParameters_of_distinct (hnew : ∀ p ∈ ps, p.name ∉ seen)
    (hdistinct : (ps.map (·.name)).Nodup)
    (hsource : ∀ p ∈ ps, p.default = none ∨ p.valueFrom = none) :
    Template.validateParameters seen ps
      = if "" ∈ ps.map (·.name) then .error .emptyParameterName else .ok () := by
  induction ps generalizing seen with
  | nil => rfl
  | cons p rest ih =>
    rw [List.map_cons, List.nodup_cons] at hdistinct
    have hrest := name_notMem_cons hnew hdistinct.1
    have hone : (p.default.isSome && p.valueFrom.isSome) = false := by
      rcases hsource p List.mem_cons_self with h | h <;> simp [h]
    rw [Template.validateParameters, List.map_cons]
    by_cases hp : p.name = ""
    · rw [if_pos hp, if_pos (hp ▸ List.mem_cons_self)]
    · rw [if_neg hp, if_neg (hnew p List.mem_cons_self), hone, if_neg Bool.false_ne_true,
        ih hrest hdistinct.2 fun q hq => hsource q (List.mem_cons_of_mem _ hq)]
      simp only [List.mem_cons, Ne.symm hp, false_or]

/-- Whatever becomes an input parameter has a default with an encoding, or no default. -/
theorem encodes_of_forall₂ (h : List.Forall₂ (fun d p => d.buildParameter = .ok p) ds ps) :
    ∀ d ∈ ds, ∃ e, d.encodeDefault = .ok e := by
  have hboth : List.Forall₂
      (fun d p => (∃ e, d.encodeDefault = .ok e) ∧ d.buildParameter = .ok p) ds ps :=
    h.imp fun _ _ hd => ⟨(buildParameter_eq_ok.1 hd).imp fun _ he => he.1, hd⟩
  exact ((List.forall₂_and_left ds ps).1 hboth).1

/-- No input parameter of declarations has both a default and a reference, since an encoding is one
of the two. -/
theorem one_source_of_forall₂ (h : List.Forall₂ (fun d p => d.buildParameter = .ok p) ds ps) :
    ∀ p ∈ ps, p.default = none ∨ p.valueFrom = none := by
  have hboth : List.Forall₂
      (fun p d => (p.default = none ∨ p.valueFrom = none) ∧ d.buildParameter = .ok p) ps ds :=
    h.flip.imp fun _ _ hd => ⟨(becomes_of_buildParameter hd).one_source, hd⟩
  exact ((List.forall₂_and_left ps ds).1 hboth).1

/-! ## Compilation -/

namespace TemplateDefinition

/-- If parameters, name and manifest are there, and hooks change nothing but the manifest
(`hhooks`), then only an empty name of a parameter is an error. -/
theorem compile_eq_validated {t : TemplateDefinition} {inputs : List Parameter} {m m' : Manifest}
    (hinputs : buildParameters t.parameters = .ok inputs)
    (hname : Text.isBlankLine t.name.toList = false) (hm : t.resolveManifest = .ok m)
    (hhooks : t.hooks.apply { name := t.name, inputs, manifest := m }
      = { name := t.name, inputs, manifest := m' }) :
    t.compile = if "" ∈ t.parameters.map (·.name) then .error (.template .emptyParameterName)
      else .ok ⟨{ name := t.name, inputs, manifest := m' }, t.parameters⟩ := by
  obtain ⟨-, hdistinct, hall⟩ := buildAfter_eq_ok.1 hinputs
  have hnames := map_name_eq hall
  have hvalid : Template.validate { name := t.name, inputs, manifest := m' }
      = if "" ∈ t.parameters.map (·.name) then .error .emptyParameterName else .ok () := by
    rw [Template.validate, hname, if_neg Bool.false_ne_true,
      validateParameters_of_distinct (fun _ _ => List.not_mem_nil) (hnames ▸ hdistinct)
        (one_source_of_forall₂ hall), hnames]
  rw [compile, hinputs, checkName, hname, hm]
  simp only [bind, Except.bind, Bool.false_eq_true, if_false, hhooks, hvalid]
  split_ifs <;> rfl

/-- **The outcomes of a compilation.** Without hooks, and if the name is not blank, the declared
names are distinct and there is a manifest, then a default has no encoding, and that is the error,
or the declarations become input parameters, and only an empty name among them is an error. -/
theorem compile_of_distinct {t : TemplateDefinition} {m : Manifest} (hooks : t.hooks.hooks = [])
    (hname : Text.isBlankLine t.name.toList = false) (hdistinct : (t.parameters.map (·.name)).Nodup)
    (hm : t.resolveManifest = .ok m) :
    (∃ d ∈ t.parameters, ∃ e, d.encodeDefault = .error e ∧ t.compile = .error (.encoding e))
      ∨ ∃ inputs, List.Forall₂ (fun d p => d.buildParameter = .ok p) t.parameters inputs
        ∧ t.compile = if "" ∈ t.parameters.map (·.name) then .error (.template .emptyParameterName)
          else .ok ⟨{ name := t.name, inputs, manifest := m }, t.parameters⟩ := by
  have hnew : ∀ d ∈ t.parameters, d.name ∉ [] := fun _ _ => List.not_mem_nil
  rcases buildAfter_of_distinct hnew hdistinct with ⟨d, hd, e, he, hbuild⟩ | ⟨inputs, hbuild⟩
  · exact .inl ⟨d, hd, e, he, by rw [compile, buildParameters, hbuild]; rfl⟩
  · obtain ⟨-, -, hall⟩ := buildAfter_eq_ok.1 hbuild
    exact .inr ⟨inputs, hall, compile_eq_validated hbuild hname hm (HookChain.apply_of_nil hooks _)⟩

end TemplateDefinition

end WorkflowTemplates
