import WorkflowTemplates.Proofs.Outcome
import WorkflowTemplates.Value.Encoding

/-!
# What is encoded

References stay references, and every other value is written in the row of the table that is picked
for it, which is never that of references (`categoryFor_eq_reference`). The rows of texts and of
scalars write alike (`textLiteral_eq`). `LacksText` lists the values that a row has no text for;
they are the ones that are not encoded, and the error carries the name that the value has
(`encode_outcome`).
-/

namespace WorkflowTemplates

variable {name : String} {v : Value} {declared : Option TypeTag} {row : Category}
  {fault : EncodingFault}

/-! ## Values without a text -/

/-- Whether a JSON value is not a scalar; null counts as none, although nothing is inside of it in
JSON either. -/
def Json.isCompound : Json → Bool
  | null | array _ | object _ => true
  | bool _ | number _ | string _ => false

/-- Why a row has no text for a value. The row of packed values needs a JSON value, and those of
texts and scalars need finite numbers and scalars of JSON. The fault shows the value, cut short if
it is long. -/
inductive LacksText : Category → Value → EncodingFault → Prop
  | packedFloat {x : Binary64} (h : x.isFinite = false) :
    LacksText .packed (.float x) (.notInJson (plainText x))
  | packedComplex (z : Complex) : LacksText .packed (.complex z) .complexInJson
  | float {row : Category} {x : Binary64} (hrow : row = .text ∨ row = .scalar)
    (h : x.isFinite = false) : LacksText row (.float x) (.noLiteral (plainText x))
  | complex {row : Category} {z : Complex} (hrow : row = .text ∨ row = .scalar)
    (h : z.isFinite = false) : LacksText row (.complex z) .complexNotFinite
  | compound {row : Category} {j : Json} (hrow : row = .text ∨ row = .scalar)
    (h : j.isCompound = true) : LacksText row (.json j) (.compound (shorten j.compact 40))

/-- A scalar of JSON is written, and any other value is shown in the fault, cut to forty characters.
-/
theorem jsonScalar_eq_error {j : Json} :
    jsonScalar j = .error fault ↔ j.isCompound = true ∧ fault = .compound (shorten j.compact 40) := by
  cases j with
  | number n => cases n <;> simp [jsonScalar, Json.isCompound]
  | _ => simp [jsonScalar, Json.isCompound, eq_comm]

/-- A floating-point number is written exactly if it is finite: infinities and what is not a number
have no literal. -/
theorem floatText?_eq_none {x : Binary64} : floatText? x = none ↔ x.isFinite = false := by
  rw [← floatText?_isSome, Option.isSome_eq_false_iff, Option.isNone_iff_eq_none]

/-- A complex number is written exactly if both of its parts are finite. -/
theorem Complex.text?_eq_none {z : Complex} : z.text? = none ↔ z.isFinite = false := by
  rw [← Complex.text?_isSome, Option.isSome_eq_false_iff, Option.isNone_iff_eq_none]

/-- The rows of texts and of scalars write alike, so one lemma serves both. -/
theorem textLiteral_eq (v : Value) : textLiteral v = scalarLiteral v := by
  cases v with
  | json j => cases j <;> rfl
  | _ => rfl

/-- A floating-point number is a JSON number exactly if it is finite, as JSON has no others. -/
theorem Json.Number.ofFloat?_eq_none {x : Binary64} : ofFloat? x = none ↔ x.isFinite = false := by
  unfold ofFloat?
  split
  · next h => simp [h]
  · next h => simpa using h

/-- In the rows of texts and of scalars just the values that are listed in `LacksText` have no text.
-/
theorem scalarLiteral_eq_error (hrow : row = .text ∨ row = .scalar) (hv : v.isReference = false) :
    scalarLiteral v = .error fault ↔ LacksText row v fault := by
  have hpacked : row ≠ .packed := by
    rintro rfl
    cases hrow <;> contradiction
  constructor
  · intro h
    cases v with
    | string _ | integer _ | boolean _ => cases h
    | reference r => cases hv
    | float x =>
      rw [scalarLiteral] at h
      split at h
      · cases h
      · next hx =>
        cases h
        exact .float hrow (floatText?_eq_none.1 hx)
    | complex z =>
      rw [scalarLiteral] at h
      split at h
      · cases h
      · next hz =>
        cases h
        exact .complex hrow (Complex.text?_eq_none.1 hz)
    | json j =>
      obtain ⟨hj, rfl⟩ := jsonScalar_eq_error.1 h
      exact .compound hrow hj
  · intro h
    cases h with
    | packedFloat _ | packedComplex _ => exact absurd rfl hpacked
    | float _ hx => rw [scalarLiteral, floatText?_eq_none.2 hx]
    | complex _ hz => rw [scalarLiteral, Complex.text?_eq_none.2 hz]
    | compound _ hj => exact jsonScalar_eq_error.2 ⟨hj, rfl⟩

/-- In the row of packed values just the values that are listed in `LacksText` have no text. -/
theorem toJson_eq_error (hv : v.isReference = false) :
    v.toJson = .error fault ↔ LacksText .packed v fault := by
  constructor
  · intro h
    cases v with
    | string _ | integer _ | boolean _ | json _ => cases h
    | reference r => cases hv
    | complex z =>
      cases h
      exact .packedComplex z
    | float x =>
      rw [Value.toJson] at h
      split at h
      · cases h
      · next hx =>
        cases h
        exact .packedFloat (Json.Number.ofFloat?_eq_none.1 hx)
  · intro h
    cases h with
    | packedFloat hx => rw [Value.toJson, Json.Number.ofFloat?_eq_none.2 hx]
    | packedComplex z => rfl
    | float hrow _ | complex hrow _ | compound hrow _ => rcases hrow with h | h <;> cases h

/-- No row lacks a text because of a reference: the faults of references are kept for places that
refuse them (`LacksText`). -/
theorem LacksText.fault_ne (h : LacksText row v fault) :
    fault ≠ .referenceAsLiteral ∧ fault ≠ .referenceAsJson ∧ fault ≠ .referenceAsItem := by
  cases h <;> exact ⟨nofun, nofun, nofun⟩

/-- The row of references lacks no text, for no value is written in it: references are passed as
they are (`LacksText`). -/
theorem not_lacksText_reference : ¬LacksText .reference v fault := by
  intro h
  cases h with
  | float hrow _ | complex hrow _ | compound hrow _ => rcases hrow with h | h <;> cases h

/-! ## Rows -/

/-- The row of references is picked (`categoryFor`) for references and for nothing else. -/
theorem categoryFor_eq_reference : categoryFor v declared = .reference ↔ v.isReference = true := by
  unfold categoryFor
  split
  · next hv => simp [hv]
  next hv =>
  have hvalue : v.category ≠ .reference := by
    cases v with
    | reference r => exact absurd rfl hv
    | _ => nofun
  split
  · simp [hv, hvalue]
  · simp [hv, hvalue]
  · next category hcategory _ => simp_all

/-- In a row other than that of references a value has no text for the listed reasons (`LacksText`).
-/
theorem literalIn_eq_error (hrow : row ≠ .reference) (hv : v.isReference = false) :
    literalIn row v = .error fault ↔ LacksText row v fault := by
  cases row with
  | reference => exact absurd rfl hrow
  | packed => rw [literalIn, map_eq_error, toJson_eq_error hv]
  | scalar => exact scalarLiteral_eq_error (.inr rfl) hv
  | text =>
    rw [literalIn, textLiteral_eq]
    exact scalarLiteral_eq_error (.inl rfl) hv

/-- A value that is no reference becomes its text in the row that is picked for it (`categoryFor`),
and an error gets its name. -/
theorem encode_eq (hv : v.isReference = false) :
    encode name v declared
      = ((literalIn (categoryFor v declared) v).map .literal).mapError (⟨name, ·⟩) := by
  unfold encode
  split
  · cases hv
  · cases literalIn (categoryFor _ declared) _ <;> rfl

/-- References stay references, and other values never become one, whatever type is declared. -/
theorem encode_eq_reference {r : ValueFrom} :
    encode name v declared = .ok (.reference r) ↔ v = .reference r := by
  unfold encode
  split
  · simp
  · next h => split <;> simp_all

/-- What is encoded as a literal is no reference, so it has a row. -/
theorem isReference_of_literal {text : String}
    (h : encode name v declared = .ok (.literal text)) : v.isReference = false := by
  cases v with
  | reference r => cases h
  | _ => rfl

/-- What is encoded and is no reference is encoded as a literal, under any type. -/
theorem exists_literal {e : Encoded} (h : encode name v declared = .ok e)
    (hv : v.isReference = false) : ∃ text, e = .literal text := by
  cases e with
  | literal text => exact ⟨text, rfl⟩
  | reference r =>
    rw [encode_eq_reference.1 h] at hv
    cases hv

/-- A value is not encoded exactly if the row that is picked for it has no text for it
(`LacksText`). -/
theorem encode_eq_error {e : EncodingError} :
    encode name v declared = .error e
      ↔ e.parameter = name ∧ LacksText (categoryFor v declared) v e.fault := by
  cases hv : v.isReference with
  | true =>
    have hrow : categoryFor v declared = .reference := categoryFor_eq_reference.2 hv
    rw [hrow]
    refine ⟨fun h => ?_, fun h => absurd h.2 not_lacksText_reference⟩
    cases v with
    | reference r => cases h
    | _ => cases hv
  | false =>
    have hrow : categoryFor v declared ≠ .reference := by
      intro h
      rw [categoryFor_eq_reference.1 h] at hv
      cases hv
    rw [encode_eq hv, mapError_eq_error]
    simp only [map_eq_error, literalIn_eq_error hrow hv]
    constructor
    · rintro ⟨fault, h, rfl⟩
      exact ⟨rfl, h⟩
    · rintro ⟨rfl, h⟩
      exact ⟨e.fault, h, rfl⟩

/-- **What becomes of a value.** References, and no other values, stay the references that they are.
Any other value becomes a text, or there is an error that carries just its name; and that is so
exactly if the row that is picked for the value has no text for it. Strings, also those of JSON, are
their own texts in the rows of texts and of scalars. The row of references is never picked for a
value that is none, and no error is about references. -/
theorem encode_outcome (name : String) (v : Value) (declared : Option TypeTag) :
    (∀ r, encode name v declared = .ok (.reference r) ↔ v = .reference r)
      ∧ (v.isReference = false →
        (∃ text, encode name v declared = .ok (.literal text))
          ∨ ∃ fault, encode name v declared = .error ⟨name, fault⟩)
      ∧ (∀ e, encode name v declared = .error e
        ↔ e.parameter = name ∧ LacksText (categoryFor v declared) v e.fault)
      ∧ (∀ s, v = .string s ∨ v = .json (.string s) →
        categoryFor v declared = .text ∨ categoryFor v declared = .scalar →
        encode name v declared = .ok (.literal s))
      ∧ (categoryFor v declared = .reference ↔ v.isReference = true)
      ∧ ∀ e, encode name v declared = .error e → e.fault ≠ .referenceAsLiteral
        ∧ e.fault ≠ .referenceAsJson ∧ e.fault ≠ .referenceAsItem := by
  refine ⟨fun r => encode_eq_reference, fun hv => ?_, fun e => encode_eq_error,
    fun s hs hrow => ?_, categoryFor_eq_reference, fun e he => ?_⟩
  · rw [encode_eq hv]
    cases literalIn (categoryFor v declared) v with
    | ok text => exact .inl ⟨text, rfl⟩
    | error fault => exact .inr ⟨fault, rfl⟩
  · have hv : v.isReference = false := by
      rcases hs with rfl | rfl <;> rfl
    have htext : literalIn (categoryFor v declared) v = .ok s := by
      rcases hrow with hrow | hrow <;> rw [hrow] <;> rcases hs with rfl | rfl <;> rfl
    rw [encode_eq hv, htext]
    rfl
  · exact (encode_eq_error.1 he).2.fault_ne

-- Null is a JSON value, so it is packed, but it is not a scalar.
example : encode "limit" (.json .null) (some .integer) = .error ⟨"limit", .compound "null"⟩ :=
  rfl

end WorkflowTemplates
