import WorkflowTemplates.Proofs.FirstFault
import WorkflowTemplates.Proofs.Names
import WorkflowTemplates.Proofs.Template.Schema

/-!
# Valid templates

The validation accepts just the templates that meet the demands of the engine (`Template.Valid`), and
rejects any other for its blank name or for the first violation of a parameter
(`Template.Rejected`). Hooks may do what they like: every compiled template is valid
(`validate_outcome`).
-/

namespace WorkflowTemplates

variable {taken seen : List String} {p : Parameter} {ps : List Parameter} {t : Template}
  {e : TemplateError}

/-- A text is not blank exactly if some character of it is not blank. -/
theorem Text.isBlankLine_eq_false_iff {s : List Char} :
    isBlankLine s = false ↔ ∃ c ∈ s, isBlank c = false := by
  simp [isBlankLine]

/-! ## Parameters -/

/-- What the engine objects to in a parameter behind others whose names are `taken`: an empty name
before a name that is taken, and that before two sources. -/
inductive Parameter.Violates (taken : List String) (p : Parameter) : TemplateError → Prop
  | emptyName (h : p.name = "") : Violates taken p .emptyParameterName
  | duplicate (hname : p.name ≠ "") (h : p.name ∈ taken) :
    Violates taken p (.duplicateParameter p.name)
  | conflict (hname : p.name ≠ "") (hnew : p.name ∉ taken) (hdefault : p.default ≠ none)
    (hsource : p.valueFrom ≠ none) : Violates taken p (.conflictingSource p.name)

/-- The engine objects to nothing in a parameter of a new name with one source at most, and in every
other one to something (`Violates`). -/
theorem Parameter.not_violates_iff :
    (∀ e, ¬p.Violates taken e)
      ↔ p.name ≠ "" ∧ p.name ∉ taken ∧ (p.default = none ∨ p.valueFrom = none) := by
  constructor
  · intro h
    have hname : p.name ≠ "" := fun hname => h _ (.emptyName hname)
    have hnew : p.name ∉ taken := fun htaken => h _ (.duplicate hname htaken)
    refine ⟨hname, hnew, ?_⟩
    by_contra hboth
    rw [not_or] at hboth
    exact h _ (.conflict hname hnew hboth.1 hboth.2)
  · rintro ⟨hname, hnew, hsource⟩ e h
    cases h with
    | emptyName h => exact hname h
    | duplicate _ h => exact hnew h
    | conflict _ _ hdefault hvalueFrom => exact hsource.elim hdefault hvalueFrom

namespace Template

/-- A parameter that the engine objects to (`Violates`) is where the validation ends. -/
theorem validateParameters_of_violates (h : p.Violates seen e) :
    validateParameters seen (p :: ps) = .error e := by
  cases h with
  | emptyName h => rw [validateParameters, if_pos h]
  | duplicate hname h => rw [validateParameters, if_neg hname, if_pos h]
  | conflict hname hnew hdefault hsource =>
    have hboth : (p.default.isSome && p.valueFrom.isSome) = true := by
      simp [Option.isSome_iff_ne_none, hdefault, hsource]
    rw [validateParameters, if_neg hname, if_neg hnew, if_pos hboth]

/-- The validation goes on behind a parameter that the engine does not object to, whose name is then
taken (`Violates`). -/
theorem validateParameters_of_not_violates (h : ∀ e, ¬p.Violates seen e) :
    validateParameters seen (p :: ps) = validateParameters (p.name :: seen) ps := by
  obtain ⟨hname, hnew, hsource⟩ := Parameter.not_violates_iff.1 h
  have hone : ¬(p.default.isSome && p.valueFrom.isSome) = true := by
    rcases hsource with hnone | hnone <;> simp [hnone]
  rw [validateParameters, if_neg hname, if_neg hnew, if_neg hone]

/-- The validation of parameters stops at the first violation, as `StopsAtFault` asks. -/
theorem stopsAtFault_validateParameters :
    StopsAtFault (·.name) Parameter.Violates validateParameters where
  congr hmem h := by
    cases h with
    | emptyName h => exact .emptyName h
    | duplicate hname h => exact .duplicate hname ((hmem _).1 h)
    | conflict hname hnew hdefault hsource =>
      exact .conflict hname (fun h => hnew ((hmem _).2 h)) hdefault hsource
  nil _ := ⟨(), rfl⟩
  stops h := validateParameters_of_violates h
  goes_on h := by rw [validateParameters_of_not_violates h]

/-- The validation passes parameters of new, distinct names with one source each at most, and no
others. -/
theorem validateParameters_eq_ok :
    validateParameters seen ps = .ok ()
      ↔ (∀ p ∈ ps, p.name ≠ "") ∧ (∀ p ∈ ps, p.name ∉ seen) ∧ (ps.map (·.name)).Nodup
        ∧ ∀ p ∈ ps, p.default = none ∨ p.valueFrom = none := by
  induction ps generalizing seen with
  | nil => simp [validateParameters]
  | cons p rest ih =>
    simp only [List.forall_mem_cons, List.map_cons, List.nodup_cons]
    by_cases hp : ∃ e, p.Violates seen e
    · obtain ⟨e, he⟩ := hp
      rw [validateParameters_of_violates he]
      refine ⟨nofun, ?_⟩
      rintro ⟨⟨hname, -⟩, ⟨hnew, -⟩, -, hsource, -⟩
      exact absurd he (Parameter.not_violates_iff.2 ⟨hname, hnew, hsource⟩ e)
    · rw [not_exists] at hp
      obtain ⟨hname, hnew, hsource⟩ := Parameter.not_violates_iff.1 hp
      rw [validateParameters_of_not_violates hp, ih]
      constructor
      · rintro ⟨hnames, hbehind, hdistinct, hsources⟩
        refine ⟨⟨hname, hnames⟩, ⟨hnew, fun q hq h => ?_⟩, ⟨fun h => ?_, hdistinct⟩, hsource,
          hsources⟩
        · exact hbehind q hq (List.mem_cons_of_mem _ h)
        · obtain ⟨q, hq, hqname⟩ := List.mem_map.1 h
          exact hbehind q hq (hqname ▸ List.mem_cons_self)
      · rintro ⟨⟨-, hnames⟩, hseen, ⟨hfresh, hdistinct⟩, -, hsources⟩
        have hbehind : ∀ q ∈ rest, q.name ∉ p.name :: seen :=
          name_notMem_cons (List.forall_mem_cons.2 hseen) hfresh
        exact ⟨hnames, hbehind, hdistinct, hsources⟩

/-! ## Templates -/

/-- Why the engine rejects a template: its name is blank, or it is not, and this is the first
violation of a parameter (`FirstFault`). -/
inductive Rejected (t : Template) : TemplateError → Prop
  | name (h : ∀ c ∈ t.name.toList, Text.isBlank c = true) : Rejected t .emptyName
  | parameter {e : TemplateError} (hname : ∃ c ∈ t.name.toList, Text.isBlank c = false)
    (h : FirstFault (·.name) Parameter.Violates t.inputs e) : Rejected t e

/-- The demands of the engine, one by one, as `Template.Valid` puts them together. -/
theorem valid_iff :
    t.Valid ↔ (∃ c ∈ t.name.toList, Text.isBlank c = false) ∧ (∀ p ∈ t.inputs, p.name ≠ "")
      ∧ (t.inputs.map (·.name)).Nodup ∧ ∀ p ∈ t.inputs, p.default = none ∨ p.valueFrom = none := by
  rw [← Text.isBlankLine_eq_false_iff]
  constructor
  · intro h
    exact ⟨h.name_not_blank, h.names_not_empty, h.names_distinct, h.one_source⟩
  · rintro ⟨hname, hnames, hdistinct, hsource⟩
    exact ⟨hname, hnames, hdistinct, hsource⟩

/-- The validation passes just the valid templates (`Template.Valid`). -/
theorem validate_eq_ok : t.validate = .ok () ↔ t.Valid := by
  rw [validate]
  split
  · next hblank => exact ⟨nofun, fun h => absurd (h.name_not_blank.symm.trans hblank) nofun⟩
  · next hblank =>
    rw [validateParameters_eq_ok]
    constructor
    · rintro ⟨hnames, -, hdistinct, hsources⟩
      exact ⟨Bool.eq_false_iff.2 hblank, hnames, hdistinct, hsources⟩
    · intro h
      exact ⟨h.names_not_empty, fun _ _ => List.not_mem_nil, h.names_distinct, h.one_source⟩

/-- The validation reports just why the engine rejects a template (`Rejected`). -/
theorem validate_eq_error : t.validate = .error e ↔ t.Rejected e := by
  rw [validate]
  split
  · next hblank =>
    have hall : ∀ c ∈ t.name.toList, Text.isBlank c = true := List.all_eq_true.1 hblank
    constructor
    · rintro ⟨⟩
      exact .name hall
    · rintro (_ | ⟨⟨c, hc, hnot⟩, -⟩)
      · rfl
      · exact absurd ((hall c hc).symm.trans hnot) nofun
  · next hblank =>
    have hname := Text.isBlankLine_eq_false_iff.1 (Bool.eq_false_iff.2 hblank)
    rw [stopsAtFault_validateParameters.eq_error_iff]
    constructor
    · exact .parameter hname
    · rintro (hall | ⟨-, h⟩)
      · exact absurd (List.all_eq_true.2 hall) hblank
      · exact h

end Template

/-- **The validation is exact.** It passes just the valid templates, those whose name has a character
that is not blank, and whose parameters have distinct names, none of them empty, and not both a
default and a source. It rejects any other template for its blank name, or else for the first
violation of a parameter. So the template of every compilation that succeeds is valid, whatever the
hooks do. -/
theorem validate_outcome (t : Template) :
    (t.validate = .ok () ↔ t.Valid)
      ∧ (t.Valid ↔ (∃ c ∈ t.name.toList, Text.isBlank c = false) ∧ (∀ p ∈ t.inputs, p.name ≠ "")
        ∧ (t.inputs.map (·.name)).Nodup ∧ ∀ p ∈ t.inputs, p.default = none ∨ p.valueFrom = none)
      ∧ (∀ e, t.validate = .error e ↔ t.Rejected e)
      ∧ ∀ (d : TemplateDefinition) (c : CompiledTemplate), d.compile = .ok c → c.template.Valid := by
  refine ⟨Template.validate_eq_ok, Template.valid_iff, fun e => Template.validate_eq_error,
    fun d c h => ?_⟩
  obtain ⟨inputs, manifest, -, -, -, hvalid, -⟩ := TemplateDefinition.compile_eq_ok.1 h
  exact Template.validate_eq_ok.1 hvalid

-- Of two violations of one parameter the taken name is reported.
example : Template.validate {
      name := "echo"
      inputs := [{ name := "a" }, { name := "a", default := some "1", valueFrom := some {} }]
      manifest := .container { image := some "alpine" } }
    = .error (.duplicateParameter "a") :=
  rfl

end WorkflowTemplates
