import WorkflowTemplates.Proofs.Template.Phases

/-!
# Input parameters of declarations

Declarations have input parameters exactly if their names are distinct and every default has an
encoding. Each of them then describes the input parameter in its place (`Declaration.Describes`).
Otherwise the first declaration that offends says why (`buildParameters_outcome`).
-/

namespace WorkflowTemplates

namespace Declaration

variable {d : Declaration} {p : Parameter}

/-- The input parameter that a declaration describes, field by field. A default that is a reference
is the source of the value, any other default is there as its text (`encode`), and nothing else is
said of the value. -/
structure Describes (d : Declaration) (p : Parameter) : Prop extends d.Becomes p where
  source (r : ValueFrom) : p.valueFrom = some r ↔ d.default = some (.reference r)
  default_isSome : p.default.isSome = true ↔ ∃ v, d.default = some v ∧ v.isReference = false
  default_text (text : String) : p.default = some text
    ↔ ∃ v, d.default = some v ∧ encode d.name v (some d.type) = .ok (.literal text)
  value : p.value = none
  description : p.description = none

/-- A declaration has an encoded default exactly if its default, if there is one, is encoded by the
declared type; without a default there is nothing to encode. -/
theorem exists_encodeDefault_iff :
    (∃ encoded, d.encodeDefault = .ok encoded)
      ↔ ∀ v, d.default = some v → ∃ e, encode d.name v (some d.type) = .ok e := by
  rw [encodeDefault]
  split
  · next hd => simp [hd]
  · next v hd =>
    simp only [hd, Option.some.injEq, forall_eq', map_eq_ok]
    exact ⟨fun ⟨_, e, he, _⟩ => ⟨e, he⟩, fun ⟨e, he⟩ => ⟨_, e, he, rfl⟩⟩

/-- The encoded default is that of the default by the declared type, under the name of the
declaration. -/
theorem encodeDefault_eq_some {e : Encoded} :
    d.encodeDefault = .ok (some e)
      ↔ ∃ v, d.default = some v ∧ encode d.name v (some d.type) = .ok e := by
  rw [encodeDefault]
  split
  · next hd => simp [hd]
  · next v hd => simp [hd, map_eq_ok]

/-- Only a reference becomes the source of an input parameter (`toParameter`). -/
theorem valueFrom_toParameter {encoded : Option Encoded} {r : ValueFrom} :
    (d.toParameter encoded).valueFrom = some r ↔ encoded = some (.reference r) := by
  cases encoded with
  | none => simp [toParameter]
  | some e => cases e <;> simp [toParameter]

/-- Only a text becomes the default of an input parameter (`toParameter`). -/
theorem default_toParameter {encoded : Option Encoded} {text : String} :
    (d.toParameter encoded).default = some text ↔ encoded = some (.literal text) := by
  cases encoded with
  | none => simp [toParameter]
  | some e => cases e <;> simp [toParameter]

/-- An input parameter of a declaration has neither a value, which a call gives, nor a description.
-/
theorem value_toParameter (d : Declaration) (encoded : Option Encoded) :
    (d.toParameter encoded).value = none ∧ (d.toParameter encoded).description = none := by
  cases encoded with
  | none => exact ⟨rfl, rfl⟩
  | some e => cases e <;> exact ⟨rfl, rfl⟩

/-- A declaration describes the input parameter that is built of it (`buildParameter`), in every
field. -/
theorem describes_of_buildParameter (h : d.buildParameter = .ok p) : d.Describes p := by
  have hbecomes := becomes_of_buildParameter h
  obtain ⟨encoded, hencoded, rfl⟩ := buildParameter_eq_ok.1 h
  have hsome (e : Encoded) : encoded = some e
      ↔ ∃ v, d.default = some v ∧ encode d.name v (some d.type) = .ok e := by
    rw [← encodeDefault_eq_some, hencoded, Except.ok.injEq]
  have htext (text : String) : (d.toParameter encoded).default = some text
      ↔ ∃ v, d.default = some v ∧ encode d.name v (some d.type) = .ok (.literal text) := by
    rw [default_toParameter, hsome]
  refine { hbecomes with
    source := fun r => ?_
    default_isSome := ?_
    default_text := htext
    value := (value_toParameter d encoded).1
    description := (value_toParameter d encoded).2 }
  · rw [valueFrom_toParameter, hsome]
    simp only [encode_eq_reference, exists_eq_right]
  · rw [Option.isSome_iff_exists]
    simp only [htext]
    constructor
    · rintro ⟨text, v, hv, he⟩
      exact ⟨v, hv, isReference_of_literal he⟩
    · rintro ⟨v, hv, hreference⟩
      obtain ⟨e, he⟩ := exists_encodeDefault_iff.1 ⟨encoded, hencoded⟩ v hv
      obtain ⟨text, rfl⟩ := exists_literal he hreference
      exact ⟨text, v, hv, he⟩

end Declaration

/-- **The input parameters of declarations.** They are there exactly if the names of the
declarations are distinct and every default has an encoding by the declared type, and then each
declaration describes the input parameter in its place. Otherwise the error is that of the first
declaration that offends: its name is that of an earlier one, or else its default has no
encoding. -/
theorem buildParameters_outcome (ds : List Declaration) :
    ((∃ ps, buildParameters ds = .ok ps)
        ↔ (ds.map (·.name)).Nodup ∧ ∀ d ∈ ds, ∀ v, d.default = some v →
          ∃ e, encode d.name v (some d.type) = .ok e)
      ∧ (∀ ps, buildParameters ds = .ok ps → List.Forall₂ Declaration.Describes ds ps)
      ∧ ∀ e, buildParameters ds = .error e
        ↔ FirstFault (·.name) Declaration.Offends ds e := by
  refine ⟨?_, fun ps hps => ?_, fun e => stopsAtFault_buildAfter.eq_error_iff⟩
  · constructor
    · rintro ⟨ps, hps⟩
      obtain ⟨hdistinct, hbuilt⟩ := buildParameters_eq_ok.1 hps
      refine ⟨hdistinct, fun d hd => ?_⟩
      exact Declaration.exists_encodeDefault_iff.1 (encodes_of_forall₂ hbuilt d hd)
    · rintro ⟨hdistinct, hencodes⟩
      have hnew : ∀ d ∈ ds, d.name ∉ [] := fun _ _ => List.not_mem_nil
      rcases buildAfter_of_distinct hnew hdistinct with ⟨d, hd, e, he, -⟩ | hps
      · obtain ⟨encoded, hencoded⟩ := Declaration.exists_encodeDefault_iff.2 (hencodes d hd)
        cases he.symm.trans hencoded
      · exact hps
  · exact (buildParameters_eq_ok.1 hps).built.imp
      fun _ _ h => Declaration.describes_of_buildParameter h

-- The name is looked at before the default, which has no encoding here.
example : buildParameters [{ name := "a" }, { name := "a", default := some (.float .nan) }]
    = .error (.duplicateParameter "a") :=
  rfl

end WorkflowTemplates
