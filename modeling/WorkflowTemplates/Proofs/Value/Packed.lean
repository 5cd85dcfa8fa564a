import Mathlib.Data.List.GetD
import WorkflowTemplates.Proofs.Json.RoundTrip
import WorkflowTemplates.Proofs.Value.Encoded

/-!
# Packed values

A value in the row of packed ones becomes a text of hexadecimal digits, which unpacks to the JSON
value that stands for the value (`encode_packed_unpacks`).
-/

namespace WorkflowTemplates

/-- Every half of a byte has a digit, so `digit` never leaves the table. -/
theorem Text.Hex.digit_mem {n : Nat} (h : n < 16) : digit n ∈ digits := by
  have hlength : digits.length = 16 := rfl
  rw [digit, List.getD_eq_getElem digits '0' (hlength.symm ▸ h)]
  exact List.getElem_mem _

/-- Bytes are written in digits, in lower case (`Text.Hex.digits`). -/
theorem Text.Hex.mem_digits_of_mem_encode {bytes : List UInt8} {c : Char}
    (h : c ∈ encode bytes) : c ∈ digits := by
  induction bytes with
  | nil => cases h
  | cons b bytes ih =>
    have hb : b.toNat < 256 := b.toNat_lt_size
    rw [encode, List.mem_cons, List.mem_cons] at h
    rcases h with rfl | rfl | h
    · exact digit_mem (by omega)
    · exact digit_mem (by omega)
    · exact ih h

/-- Only packed values are encoded in the row of packed ones, each by the JSON value that stands for
it (`Value.toJson`). -/
theorem encode_packed {name : String} {v : Value} {declared : Option TypeTag} {e : Encoded}
    (hrow : categoryFor v declared = .packed) (h : encode name v declared = .ok e) :
    ∃ j, v.toJson = .ok j ∧ e = .literal (packed j) := by
  have hv : v.isReference = false := by
    refine Bool.eq_false_iff.2 fun hreference => ?_
    cases hrow.symm.trans (categoryFor_eq_reference.2 hreference)
  rw [encode_eq hv, hrow, mapError_eq_ok, map_eq_ok] at h
  obtain ⟨text, htext, rfl⟩ := h
  obtain ⟨j, hj, rfl⟩ := map_eq_ok.1 htext
  exact ⟨j, hj, rfl⟩

/-- A packed text has two digits for each byte of the JSON text, and no other characters. -/
theorem packed_digits (j : Json) :
    (packed j).length = 2 * j.toBytes.length ∧ ∀ c ∈ (packed j).toList, c ∈ Text.Hex.digits := by
  rw [packed, String.toList_ofList, String.length_ofList, Text.Hex.length_encode]
  exact ⟨rfl, fun c hc => Text.Hex.mem_digits_of_mem_encode hc⟩

/-- A packed JSON value unpacks, if its text reads back: it must be in order, its numbers must read
back, and it must not be too deep for the reader (`NumbersReadBack`). -/
theorem decodePacked?_packed {j : Json} (ordered : j.Ordered) (numbers : j.NumbersReadBack)
    (shallow : j.depth ≤ Json.maxDepth) : decodePacked? (packed j) = some j := by
  rw [decodePacked?, packed, String.toList_ofList, Text.Hex.decode_encode, Option.bind_some,
    Json.readBytes?_toBytes ordered numbers shallow]

/-- Packed texts tell JSON values apart, at any depth: the reader's bound on depth plays no part
here. -/
theorem packed_inj {j j' : Json} (hj : j.Ordered) (hj' : j'.Ordered) (hn : j.NumbersReadBack)
    (hn' : j'.NumbersReadBack) : packed j = packed j' ↔ j = j' := by
  refine ⟨fun h => ?_, fun h => h ▸ rfl⟩
  have hdecode := congrArg Text.Hex.decode (String.ofList_injective h)
  rw [Text.Hex.decode_encode, Text.Hex.decode_encode] at hdecode
  exact Json.eq_of_toBytes_eq hj hj' hn hn' (Option.some.inj hdecode)

/-- **Packed values unpack**: whatever is encoded in the row of packed values, under whatever name
and type, becomes a text of an even number of digits in lower case, which unpacks to the JSON value
that stands for the value. The reader takes 127 arrays and objects inside each other and no more,
the objects of a JSON value are in order, and its numbers other than integers must read back. -/
theorem encode_packed_unpacks {name : String} {v : Value} {declared : Option TypeTag} {e : Encoded}
    (hrow : categoryFor v declared = .packed) (h : encode name v declared = .ok e) :
    ∃ text j, e = .literal text ∧ v.toJson = .ok j ∧ text.length % 2 = 0
      ∧ (∀ c ∈ text.toList, c ∈ Text.Hex.digits)
      ∧ (j.Ordered → j.NumbersReadBack → j.depth ≤ 127 → decodePacked? text = some j) := by
  obtain ⟨j, hj, he⟩ := encode_packed hrow h
  obtain ⟨hlength, hdigits⟩ := packed_digits j
  exact ⟨packed j, j, he, hj, by omega, hdigits, decodePacked?_packed⟩

/-- The number 1.5. -/
def oneAndAHalf : Json.Number :=
  .float (.finite false 6755399441055744 (-52)) rfl

/-- A value with texts to escape, a number with a fraction, and containers inside each other. -/
def notes : Json :=
  .object [
    ("a\"b", .array [.string "\\ \n \x01 é 𝄞", .number oneAndAHalf]),
    ("c", .object [("", .null), ("d", .ofInt64 (-7))])]

/-- What is packed of the notes unpacks to them, with all of their characters. -/
theorem notes_unpack : ∃ text, encode "notes" (.json notes) none = .ok (.literal text)
    ∧ text.length % 2 = 0 ∧ (∀ c ∈ text.toList, c ∈ Text.Hex.digits)
    ∧ decodePacked? text = some notes := by
  obtain ⟨text, j, he, hj, heven, hdigits, hback⟩ :=
    @encode_packed_unpacks "notes" (.json notes) none _ rfl rfl
  cases hj
  have ordered : notes.Ordered := by
    simp only [notes, Json.Ordered, Json.OrderedItems, Json.OrderedMembers, Json.ofInt64, and_true]
    exact ⟨by decide, by decide⟩
  have hnumber : oneAndAHalf.ReadsBack := eq_ok_of_toOption (by decide +kernel)
  have numbers : notes.NumbersReadBack := by
    simp [notes, Json.NumbersReadBack, Json.NumbersReadBackItems, Json.NumbersReadBackMembers,
      Json.ofInt64, hnumber]
  exact ⟨text, congrArg Except.ok he, heven, hdigits, hback ordered numbers (by decide)⟩

end WorkflowTemplates
