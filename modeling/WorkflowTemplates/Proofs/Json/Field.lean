import Mathlib.Data.List.Forall2
import WorkflowTemplates.Proofs.Json.Record

/-!
# Reading written parts back

What decoders make of written scalars, lists and variants, and from that the fields of a record that
were written: those that are always there, those that are left out without a value
(`Fills.optional`), and lists that are left out if they are empty (`Fills.defaulted`).
-/

namespace WorkflowTemplates.Json

variable {α ρ : Type} {closing : Closing}

namespace Node

/-! ## Scalars -/

theorem string_toNode (s : String) :
    Node.string ((Document.string s).toJson.toNode closing) = .ok s := by
  simp only [Document.toJson, toNode, Node.string]

theorem bool_toNode (b : Bool) :
    Node.bool ((Document.bool b).toJson.toNode closing) = .ok b := by
  simp only [Document.toJson, toNode, Node.bool]

/-- A written signed integer is in the range of its type, so `Node.int64` reads it back. -/
theorem int64_toNode (i : Int64) :
    Node.int64 ((Document.ofInt64 i).toJson.toNode closing) = .ok i := by
  have hlow := i.le_toInt
  have hhigh := i.toInt_lt
  have hrange : -0x8000000000000000 ≤ i.toInt ∧ i.toInt ≤ 0x7fffffffffffffff := by omega
  simp only [Document.ofInt64, Document.toJson, toNode, Node.int64, integerWithin,
    Integer.ofInt64, if_pos hrange]
  rw [Except.map, Int64.ofInt_toInt]

/-- A written unsigned integer is in the range of its type, so `Node.uint64` reads it back. -/
theorem uint64_toNode (i : UInt64) :
    Node.uint64 ((Document.ofUInt64 i).toJson.toNode closing) = .ok i := by
  have hhigh := i.toNat_lt
  have hrange : 0 ≤ (i.toNat : Int) ∧ (i.toNat : Int) ≤ 0xffffffffffffffff := by omega
  simp only [Document.ofUInt64, Document.toJson, toNode, Node.uint64, integerWithin,
    if_pos hrange]
  rw [Except.map, Int.toNat_natCast, UInt64.ofNat_toNat]

/-- A variant is read from its name (`Node.variant`), if the name stands for it in the table. -/
theorem variant_toNode {variants : List (String × α)} {name : String} {v : α}
    (h : variants.lookup name = some v) :
    Node.variant variants ((Document.string name).toJson.toNode closing) = .ok v := by
  simp only [Document.toJson, toNode, Node.variant, variantNamed, h]

/-- A value in memory is read as it is (`Node.any`), however deep it is; its objects must be in
order. -/
theorem any_toNode {v : Json} (h : v.Ordered) : Node.any (v.toNode .memory) = .ok v := by
  simp only [Node.any, firstError_memory, value_toNode h]

/-! ## Lists and options -/

variable {decode : Decoder α}

/-- Items that `decode` reads one by one make a list, if the array is closed without an error. -/
theorem list_eq_ok {start : Option Position} {nodes : List Node} {values : List α}
    (h : List.Forall₂ (fun n v => decode n = .ok v) nodes values)
    (hclosing : closing.error? = none) :
    Node.list decode (.array start nodes closing) = .ok values := by
  have hitems : itemsAs decode nodes = .ok values := by
    induction h with
    | nil => rfl
    | cons hv _ ih =>
      rw [itemsAs, hv, ih]
      rfl
  simp only [Node.list, hitems, hclosing, bind, Except.bind]

/-- A written list is read back if `decode` reads back what `write` makes of each of its items. -/
theorem list_toNode {write : α → Document} {values : List α}
    (h : ∀ v ∈ values, decode ((write v).toJson.toNode closing) = .ok v)
    (hclosing : closing.error? = none) :
    Node.list decode ((Document.list (values.map write)).toJson.toNode closing) = .ok values := by
  rw [Document.toJson, toNode, itemNodes_eq_map, Document.toItems_eq_map]
  refine list_eq_ok ?_ hclosing
  simpa [List.map_map, List.forall₂_map_left_iff, List.forall₂_same] using h

/-- Written texts (`Document.strings`) are read back as a list of texts. -/
theorem strings_toNode (texts : List String) (hclosing : closing.error? = none) :
    Node.list Node.string ((Document.strings texts).toJson.toNode closing) = .ok texts :=
  list_toNode (fun s _ => string_toNode s) hclosing

/-- What `decode` reads as a value is there for `Node.optional` too, unless null is read as the same
value. -/
theorem optional_eq_ok {n : Node} {v : α} (h : decode n = .ok v)
    (hnull : ∀ start stop, decode (.scalar start .null stop) ≠ .ok v) :
    Node.optional decode n = .ok (some v) := by
  unfold Node.optional
  split
  · next start stop => exact absurd h (hnull start stop)
  · rw [h]
    rfl

end Node

/-! ## Fields -/

namespace RecordType.Fills

open Document (field? text? texts?)

variable {fields : List (Field ρ)} {written : List (String × Document)} {r x : ρ}
  {name : String} {need : Need} {decode : Decoder α}

/-- No fields may be written behind the last one: they can be left out of `Fills`. -/
theorem of_append_nil (h : Fills closing fields (written ++ []) r x) :
    Fills closing fields written r x := by
  rwa [List.append_nil] at h

/-- A field that is always there, whose value `decode` reads and `put` stores. -/
theorem always {v : α} {d : Document} {put : α → ρ → ρ}
    (hdecode : decode (d.toJson.toNode closing) = .ok v)
    (rest : Fills closing fields written (put v r) x) :
    Fills closing (.of name need decode put :: fields) ((name, d) :: written) r x :=
  .written (f := .of name need decode put) (by simp [Field.of, hdecode, Except.map]) rest

/-- A field that is left out without a value (`Document.field?`): `put` stores nothing then, so the
record stays. -/
theorem optional {value : Option α} {write : α → Document} {put : Option α → ρ → ρ}
    (hdecode : ∀ v, value = some v → decode ((write v).toJson.toNode closing) = .ok v)
    (hnull : ∀ start stop v, decode (.scalar start .null stop) ≠ .ok v)
    (hnone : put none r = r) (rest : Fills closing fields written (put value r) x) :
    Fills closing (.of name .optional (Node.optional decode) put :: fields)
      (field? name (value.map write) ++ written) r x := by
  cases value with
  | none => exact .missing nofun (hnone ▸ rest)
  | some v =>
    exact .always (Node.optional_eq_ok (hdecode v rfl) fun start stop => hnull start stop v) rest

/-- A text that is left out if there is none (`Document.text?`), as a special case of
`Fills.optional`. -/
theorem text? {text : Option String} {put : Option String → ρ → ρ} (hnone : put none r = r)
    (rest : Fills closing fields written (put text r) x) :
    Fills closing (.text? name put :: fields) (text? name text ++ written) r x :=
  .optional (fun s _ => Node.string_toNode s) (fun _ _ _ => nofun) hnone rest

/-- A list of texts that is left out if there is none (`Document.texts?`), as a special case of
`Fills.optional`. -/
theorem texts? {texts : Option (List String)} {put : Option (List String) → ρ → ρ}
    (hclosing : closing.error? = none) (hnone : put none r = r)
    (rest : Fills closing fields written (put texts r) x) :
    Fills closing (.texts? name put :: fields) (texts? name texts ++ written) r x :=
  .optional (fun ts _ => Node.strings_toNode ts hclosing) (fun _ _ _ => nofun) hnone rest

/-- A list that is left out if it is empty: to store the empty list leaves the record as it is. -/
theorem defaulted {values : List α} {write : α → Document} {put : List α → ρ → ρ}
    (hdecode : ∀ v ∈ values, decode ((write v).toJson.toNode closing) = .ok v)
    (hclosing : closing.error? = none) (hempty : put [] r = r)
    (rest : Fills closing fields written (put values r) x) :
    Fills closing (.of name .defaulted (Node.list decode) put :: fields)
      ((if values.isEmpty then [] else [(name, .list (values.map write))]) ++ written) r x := by
  cases values with
  | nil => exact .missing nofun (hempty ▸ rest)
  | cons v rest' => exact .always (Node.list_toNode hdecode hclosing) rest

end RecordType.Fills

end WorkflowTemplates.Json
