import Mathlib.Data.String.Basic
import Mathlib.Tactic.SplitIfs
import WorkflowTemplates.Proofs.Value.Packed

/-!
# Scalars and their JSON values

A string, a truth value, a signed 64-bit integer and a finite number can be given as they are or as
JSON values (`Json.scalar?`). Every row of the table writes the two forms alike
(`literalIn_scalar`). The row is the one of the declared type, whatever the form; but where no type
is declared, or the type of references, each form has its own row, the one its text and the other
its packed text, and these are never the same (`ne_packed_of_scalar`). So the two forms are encoded
alike exactly if a type other than that of references is declared (`encode_scalar`).
-/

namespace WorkflowTemplates

variable {text : String} {j : Json} {v : Value} {t : TypeTag}

/-- What a JSON scalar is as a value: an integer must be a signed 64-bit one, and null is no scalar.
-/
def Json.scalar? : Json → Option Value
  | .string s => some (.string s)
  | .bool b => some (.boolean b)
  | .number (.integer i) => i.toInt64?.map .integer
  | .number (.float x _) => some (.float x)
  | .null | .array _ | .object _ => none

/-- A signed 64-bit integer is the same integer in JSON, where it has but one form. -/
theorem Json.Integer.ofInt64_of_toInt64? {i : Json.Integer} {n : Int64}
    (h : i.toInt64? = some n) : ofInt64 n = i := by
  unfold toInt64? at h
  split at h
  · next hle =>
    cases h
    have hvalue : (Int64.ofInt i.value).toInt = i.value :=
      Int64.toInt_ofInt_of_le i.lower (by omega)
    cases i
    simp only [ofInt64, hvalue]
  · cases h

/-- A scalar is a string, a truth value, a signed 64-bit integer or a finite number, with the value
of the same kind. -/
theorem scalar_cases (h : j.scalar? = some v) :
    (∃ s, j = .string s ∧ v = .string s) ∨ (∃ b, j = .bool b ∧ v = .boolean b)
      ∨ (∃ n, j = .ofInt64 n ∧ v = .integer n)
      ∨ ∃ x hx, j = .number (.float x hx) ∧ v = .float x := by
  unfold Json.scalar? at h
  split at h
  · next s => exact .inl ⟨s, rfl, (Option.some.inj h).symm⟩
  · next b => exact .inr (.inl ⟨b, rfl, (Option.some.inj h).symm⟩)
  · next i =>
    obtain ⟨n, hn, rfl⟩ := Option.map_eq_some_iff.1 h
    rw [← Json.Integer.ofInt64_of_toInt64? hn]
    exact .inr (.inr (.inl ⟨n, rfl, rfl⟩))
  · next x hx => exact .inr (.inr (.inr ⟨x, hx, rfl, (Option.some.inj h).symm⟩))
  all_goals cases h

/-- A scalar is no reference, so it has a row. -/
theorem isReference_of_scalar (h : j.scalar? = some v) : v.isReference = false := by
  obtain ⟨s, -, rfl⟩ | ⟨b, -, rfl⟩ | ⟨n, -, rfl⟩ | ⟨x, hx, -, rfl⟩ := scalar_cases h
  all_goals rfl

/-- By itself a scalar is not packed: its own category is that of texts or of scalars, which write
alike. -/
theorem literalIn_category (h : j.scalar? = some v) :
    literalIn v.category v = scalarLiteral v := by
  obtain ⟨s, -, rfl⟩ | ⟨b, -, rfl⟩ | ⟨n, -, rfl⟩ | ⟨x, hx, -, rfl⟩ := scalar_cases h
  all_goals rfl

/-! ## Both forms in one row -/

/-- The JSON value that stands for a scalar (`Value.toJson`) is the one it came from. -/
theorem toJson_of_scalar (h : j.scalar? = some v) : v.toJson = .ok j := by
  obtain ⟨s, rfl, rfl⟩ | ⟨b, rfl, rfl⟩ | ⟨n, rfl, rfl⟩ | ⟨x, hx, rfl, rfl⟩ := scalar_cases h
  · rfl
  · rfl
  · rfl
  · rw [Value.toJson, Json.Number.ofFloat?, dif_pos hx]

/-- A scalar is written as its JSON value is, numbers included, which both forms write in one
layout. -/
theorem scalarLiteral_of_scalar (h : j.scalar? = some v) :
    scalarLiteral v = scalarLiteral (.json j) := by
  obtain ⟨s, rfl, rfl⟩ | ⟨b, rfl, rfl⟩ | ⟨n, rfl, rfl⟩ | ⟨x, hx, rfl, rfl⟩ := scalar_cases h
  · rfl
  · rfl
  · rfl
  · rw [scalarLiteral, floatText?, if_pos hx]
    rfl

/-- **Every row writes both forms alike**, the row of packed values by the JSON value, the others by
the scalar. -/
theorem literalIn_scalar (h : j.scalar? = some v) (row : Category) :
    literalIn row v = literalIn row (.json j) := by
  cases row with
  | packed => rw [literalIn, literalIn, toJson_of_scalar h, Value.toJson]
  | scalar => exact scalarLiteral_of_scalar h
  | text | reference =>
    rw [literalIn, literalIn, textLiteral_eq, textLiteral_eq, scalarLiteral_of_scalar h]

/-- A scalar has a text in every row, as its numbers are finite. -/
theorem exists_literalIn (h : j.scalar? = some v) (row : Category) :
    ∃ text, literalIn row v = .ok text := by
  have hscalar : ∃ text, scalarLiteral (.json j) = .ok text := by
    obtain ⟨s, rfl, -⟩ | ⟨b, rfl, -⟩ | ⟨n, rfl, -⟩ | ⟨x, hx, rfl, -⟩ := scalar_cases h
    all_goals exact ⟨_, rfl⟩
  rw [literalIn_scalar h]
  cases row with
  | packed => exact ⟨packed j, rfl⟩
  | scalar => exact hscalar
  | text | reference =>
    rw [literalIn, textLiteral_eq]
    exact hscalar

/-! ## Texts that are not packed -/

/-- A text has no more characters than bytes of UTF-8. -/
theorem length_le_utf8Len (s : List Char) : s.length ≤ String.utf8Len s := by
  induction s with
  | nil => exact Nat.le_refl 0
  | cons c s ih =>
    have hc := c.utf8Size_pos
    rw [List.length_cons, String.utf8Len_cons]
    omega

/-- A packed text has at least two digits for each character of the JSON text, as each character has
a byte at least. -/
theorem two_mul_length_le_packed (j : Json) : 2 * j.text.length ≤ (packed j).length := by
  have hbytes : j.toBytes.length = String.utf8Len j.text := by
    rw [← String.utf8ByteSize_ofList]
    rfl
  have hle := length_le_utf8Len j.text
  have hlength := (packed_digits j).1
  omega

/-- A text is not packed if it is shorter than two digits for each character of the JSON text, by
`two_mul_length_le_packed`. -/
theorem ne_packed_of_length (h : text.length < 2 * j.text.length) : text ≠ packed j := by
  rintro rfl
  have hle := two_mul_length_le_packed j
  omega

/-- A text is not packed if it has a character that is no digit (`Text.Hex.digits`). -/
theorem ne_packed_of_mem {c : Char} (h : c ∈ text.toList) (hc : c ∉ Text.Hex.digits) :
    text ≠ packed j := by
  rintro rfl
  exact hc ((packed_digits j).2 c h)

/-- No character is lost between quotes: escapes only add characters. -/
theorem Json.length_lt_quoted (s : String) : s.toList.length < (quoted s).length := by
  have hescape (c : Char) : 1 ≤ (escapeChar c).length := by
    unfold escapeChar
    split_ifs <;> simp [unicodeEscape]
  have hcontent (content : List Char) : content.length ≤ (content.flatMap escapeChar).length := by
    induction content with
    | nil => exact Nat.le_refl 0
    | cons c content ih =>
      have hc := hescape c
      rw [List.flatMap_cons, List.length_append, List.length_cons]
      omega
  have hs := hcontent s.toList
  rw [quoted, List.length_append, List.length_cons]
  omega

/-- An integer is written with at least one character, also if it is zero. -/
theorem length_integer_pos (i : Int) : 0 < (Decimal.integer i).length := by
  have hnatural := List.length_pos_iff.2 (Decimal.natural_ne_nil i.natAbs)
  unfold Decimal.integer
  split
  · exact Nat.succ_pos _
  · exact hnatural

/-- A positional text with a point even for whole numbers has a point, which is no digit. -/
theorem point_mem_positionalText (d : Decimal.Digits) : '.' ∈ Decimal.positionalText true d := by
  simp only [Decimal.positionalText, if_true]
  split_ifs <;> simp

/-- An exponent has a sign, be it a plus, which is no digit. -/
theorem sign_mem_exponentText (width : Nat) (d : Decimal.Digits) :
    '-' ∈ Decimal.exponentText width d ∨ '+' ∈ Decimal.exponentText width d := by
  unfold Decimal.exponentText
  by_cases h : d.exponent < 0
  · exact .inl (by simp [h])
  · exact .inr (by simp [h])

/-- A finite number is written with a point, or with the sign of its exponent, so with a character
that is no hexadecimal digit. -/
theorem exists_mark_floatLayout {x : Binary64} (h : x.isFinite = true) :
    ∃ c ∈ Value.floatLayout.text x, c ∉ Text.Hex.digits := by
  cases x with
  | nan | infinity _ => cases h
  | finite negative m e =>
    have hbody (d : Decimal.Digits) :
        ∃ c ∈ (if Value.floatLayout.positional d.exponent
          then Decimal.positionalText Value.floatLayout.pointZero d
          else Decimal.exponentText Value.floatLayout.exponentDigits d), c ∉ Text.Hex.digits := by
      split
      · exact ⟨'.', point_mem_positionalText d, by decide⟩
      · rcases sign_mem_exponentText Value.floatLayout.exponentDigits d with hc | hc
        · exact ⟨'-', hc, by decide⟩
        · exact ⟨'+', hc, by decide⟩
    obtain ⟨c, hc, hdigit⟩ := hbody (Decimal.shortest Value.floatLayout.tie m e)
    refine ⟨c, ?_, hdigit⟩
    unfold Decimal.FloatLayout.text
    dsimp only
    split
    · exact List.mem_cons_of_mem _ hc
    · exact hc

/-- **The text of a scalar is never the packed text of its JSON value**: it is too short, or has a
character that is no digit. -/
theorem ne_packed_of_scalar (h : j.scalar? = some v) (htext : scalarLiteral v = .ok text) :
    text ≠ packed j := by
  rw [scalarLiteral_of_scalar h] at htext
  obtain ⟨s, rfl, -⟩ | ⟨b, rfl, -⟩ | ⟨n, rfl, -⟩ | ⟨x, hx, rfl, -⟩ := scalar_cases h
  · cases htext
    refine ne_packed_of_length ?_
    have hlength := Json.length_lt_quoted text
    rw [String.length_toList] at hlength
    rw [Json.text]
    omega
  · cases htext
    cases b with
    | false => exact ne_packed_of_length (by decide)
    | true => exact ne_packed_of_length (by decide)
  · cases htext
    refine ne_packed_of_length ?_
    have hpos := length_integer_pos n.toInt
    rw [String.length_ofList, Json.ofInt64, Json.text, Json.Number.text]
    change (Decimal.integer n.toInt).length < 2 * (Decimal.integer n.toInt).length
    omega
  · cases htext
    -- The layouts differ, so the lengths say nothing, but no packed text has a point or a sign.
    obtain ⟨c, hc, hdigit⟩ := exists_mark_floatLayout hx
    exact ne_packed_of_mem (by rwa [String.toList_ofList]) hdigit

/-! ## Both forms under a type -/

/-- A type other than that of references picks its row (`TypeTag.category`) for every value that is
no reference. -/
theorem categoryFor_of_declared (hv : v.isReference = false) (ht : t ≠ .reference) :
    categoryFor v (some t) = t.category := by
  unfold categoryFor
  rw [hv]
  cases t with
  | reference => exact absurd rfl ht
  | _ => rfl

/-- Where no type picks a row, the value does: without a type, or under that of references. -/
theorem categoryFor_of_not_declared {declared : Option TypeTag} (hv : v.isReference = false)
    (h : declared = none ∨ declared = some .reference) : categoryFor v declared = v.category := by
  unfold categoryFor
  rw [hv]
  rcases h with rfl | rfl <;> rfl

/-- **Scalars and their JSON values are encoded alike under a declared type.** Under whatever name
and type, both forms become literals; they are the same literal exactly if there is a declared type
and it is not that of references. -/
theorem encode_scalar (h : j.scalar? = some v) (name : String) (declared : Option TypeTag) :
    ∃ text text', encode name v declared = .ok (.literal text)
      ∧ encode name (.json j) declared = .ok (.literal text')
      ∧ (text' = text ↔ ∃ t, t ≠ .reference ∧ declared = some t) := by
  have hv := isReference_of_scalar h
  obtain ⟨text, htext⟩ := exists_literalIn h (categoryFor v declared)
  have hliteral : encode name v declared = .ok (.literal text) := by
    rw [encode_eq hv, htext]
    rfl
  rcases em (∃ t, t ≠ .reference ∧ declared = some t) with hdeclared | hdeclared
  · obtain ⟨t, ht, rfl⟩ := hdeclared
    have hrow : categoryFor (.json j) (some t) = categoryFor v (some t) := by
      rw [categoryFor_of_declared rfl ht, categoryFor_of_declared hv ht]
    refine ⟨text, text, hliteral, ?_, iff_of_true rfl ⟨t, ht, rfl⟩⟩
    rw [encode_eq rfl, hrow, ← literalIn_scalar h, htext]
    rfl
  · have hnone : declared = none ∨ declared = some .reference := by
      cases declared with
      | none => exact .inl rfl
      | some t => exact .inr (congrArg some (not_ne_iff.1 fun ht => hdeclared ⟨t, ht, rfl⟩))
    rw [categoryFor_of_not_declared hv hnone, literalIn_category h] at htext
    refine ⟨text, packed j, hliteral, ?_,
      iff_of_false (ne_packed_of_scalar h htext).symm hdeclared⟩
    rw [encode_eq rfl, categoryFor_of_not_declared rfl hnone]
    rfl

/-- The number 0.000025, which values write with an exponent and JSON without one. -/
def smallNumber : Binary64 :=
  .finite false 7378697629483821 (-68)

/-- A small number is written with an exponent in both forms where a number is declared; without a
type the number that is given in JSON is packed. -/
theorem smallNumber_encoded :
    encode "rate" (.float smallNumber) (some .complex) = .ok (.literal "2.5e-05")
      ∧ encode "rate" (.json (.number (.float smallNumber rfl))) (some .complex)
        = .ok (.literal "2.5e-05")
      ∧ encode "rate" (.json (.number (.float smallNumber rfl))) none
        ≠ encode "rate" (.float smallNumber) none := by
  have hscalar : (Json.number (.float smallNumber rfl)).scalar? = some (.float smallNumber) := rfl
  have hnumber : encode "rate" (.float smallNumber) (some .complex) = .ok (.literal "2.5e-05") :=
    eq_ok_of_toOption (by decide +kernel)
  refine ⟨hnumber, ?_, ?_⟩
  · obtain ⟨text, text', htext, hjson, hsame⟩ := encode_scalar hscalar "rate" (some .complex)
    rw [hjson, hsame.2 ⟨.complex, nofun, rfl⟩, ← htext, hnumber]
  · obtain ⟨text, text', htext, hjson, hsame⟩ := encode_scalar hscalar "rate" none
    rw [hjson, htext]
    intro heq
    obtain ⟨t, -, ht⟩ := hsame.1 (Encoded.literal.inj (Except.ok.inj heq))
    cases ht

end WorkflowTemplates
