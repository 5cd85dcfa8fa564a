import WorkflowTemplates.Proofs.Value.Packed
import WorkflowTemplates.Script.Source

/-!
# Values and the lines that bind them

A value is encoded in a row of the table of categories, and a line of a Python script binds the
parameter to what comes out. The encoding knows the value and the declared type, the line only the
type. They agree for every type but the one of references (`unpacks_iff_packed`): a JSON value that
is declared as a reference is packed, and the script binds the packed text as it is
(`reference_binds_packed_text`). Where a line unpacks, a packed text arrives.
-/

namespace WorkflowTemplates

open Flavor (pythonLine)

variable {name text : String} {t : TypeTag} {v : Value}

/-- The line of a Python script that unpacks the text under which it finds a parameter: what
`encode` packed is the hexadecimal form of a JSON text, so the line undoes both steps. -/
def Flavor.unpackingLine (name : String) : String :=
  name ++ " = json.loads(bytes.fromhex(\"" ++ inputPlaceholder name ++ "\"))"

/-- Lines that bind one name to expressions that begin differently are different, which tells an
unpacking line from one that quotes a placeholder and from one that leaves it bare. -/
theorem Flavor.binding_ne {line line' expression expression' : String}
    (hline : line = name ++ " = " ++ expression) (hline' : line' = name ++ " = " ++ expression')
    (h : expression.toList.head? ≠ expression'.toList.head?) : line ≠ line' := by
  rintro rfl
  rw [hline, String.append_right_inj] at hline'
  exact h (hline' ▸ rfl)

/-- The lines that unpack are those of the types in the row `Category.packed`; it is the type alone
that `pythonLine` looks at. -/
theorem Flavor.pythonLine_eq_unpackingLine_iff (d : Declaration) :
    pythonLine d = unpackingLine d.name ↔ d.type.category = .packed := by
  have hunpack : unpackingLine d.name = d.name ++ " = "
      ++ ("json.loads(bytes.fromhex(\"" ++ inputPlaceholder d.name ++ "\"))") := by
    rw [unpackingLine, show " = json.loads(bytes.fromhex(\""
      = " = " ++ "json.loads(bytes.fromhex(\"" by decide +kernel]
    simp only [String.append_assoc]
  have hquoted : d.name ++ " = \"" ++ inputPlaceholder d.name ++ "\""
      = d.name ++ " = " ++ ("\"" ++ inputPlaceholder d.name ++ "\"") := by
    rw [show " = \"" = " = " ++ "\"" by decide +kernel]
    simp only [String.append_assoc]
  have hplain : d.name ++ " = " ++ inputPlaceholder d.name ≠ unpackingLine d.name := by
    refine binding_ne rfl hunpack ?_
    unfold inputPlaceholder
    simp
  unfold pythonLine
  cases d.type.category with
  | text | reference =>
    exact iff_of_false (binding_ne hquoted hunpack (by simp)) (by decide)
  | scalar => exact iff_of_false hplain (by decide)
  | packed => exact iff_of_true rfl rfl

/-- A value that is no reference is packed if its declared type says so, or if it is declared as a
reference and is a JSON value: `categoryFor` then falls back to the row of the value. -/
theorem categoryFor_eq_packed_iff (hv : v.isReference = false) :
    categoryFor v (some t) = .packed
      ↔ t.category = .packed ∨ t = .reference ∧ v.category = .packed := by
  unfold categoryFor
  rw [hv, if_neg Bool.false_ne_true]
  cases t <;> simp [TypeTag.category]

/-- **Encodings and bindings agree, except for references.** Whatever value `encode` turns into a
literal under a declared type, the script unpacks it exactly if `categoryFor` packed it and the type
is not `TypeTag.reference`. So where a script unpacks, the literal is the packed text of the JSON
value that stands for the value; and a packed text is bound as it is only for a JSON value that is
declared as a reference. -/
theorem unpacks_iff_packed (d : Declaration)
    (h : encode d.name v (some d.type) = .ok (.literal text)) :
    (pythonLine d = Flavor.unpackingLine d.name
        ↔ categoryFor v (some d.type) = .packed ∧ d.type ≠ .reference)
      ∧ (categoryFor v (some d.type) = .packed →
        (∃ j, v.toJson = .ok j ∧ text = packed j) ∧ (d.type = .reference → ∃ j, v = .json j)) := by
  have hv := isReference_of_literal h
  have hline := Flavor.pythonLine_eq_unpackingLine_iff d
  have hrow := categoryFor_eq_packed_iff (t := d.type) hv
  refine ⟨hline.trans ⟨fun hpacked => ⟨hrow.2 (.inl hpacked), ?_⟩, ?_⟩, fun hpacked => ⟨?_, ?_⟩⟩
  · intro hreference
    rw [hreference] at hpacked
    cases hpacked
  · rintro ⟨hpacked, hreference⟩
    rcases hrow.1 hpacked with htype | ⟨htype, -⟩
    · exact htype
    · exact absurd htype hreference
  · obtain ⟨j, hj, he⟩ := encode_packed hpacked h
    exact ⟨j, hj, Encoded.literal.inj he⟩
  · intro hreference
    rcases hrow.1 hpacked with htype | ⟨-, hcategory⟩
    · rw [hreference] at htype
      cases htype
    · cases v with
      | json j => exact ⟨j, rfl⟩
      | _ => cases hcategory

/-- A text that is declared under a type of its own (`TypeTag.custom`) is packed, and its script
unpacks it. -/
theorem custom_text_unpacks :
    encode "note" (.string "hi") (some (.custom "dict")) = .ok (.literal "22686922")
      ∧ pythonLine { name := "note", type := .custom "dict" } = Flavor.unpackingLine "note"
      ∧ packed (.string "hi") = "22686922" := by
  have h : encode "note" (.string "hi") (some (.custom "dict")) = .ok (.literal "22686922") :=
    eq_ok_of_toOption (by decide +kernel)
  obtain ⟨hline, hpacked⟩ := unpacks_iff_packed { name := "note", type := .custom "dict" } h
  obtain ⟨⟨j, hj, htext⟩, -⟩ := hpacked rfl
  cases hj
  exact ⟨h, hline.2 ⟨rfl, nofun⟩, htext.symm⟩

/-- A list that is declared as a reference is packed by `encode`, and the line that `pythonLine`
writes for it binds the packed text, as if it were the value. -/
theorem reference_binds_packed_text :
    categoryFor (.json (.array [.ofInt64 1])) (some .reference) = .packed
      ∧ encode "ids" (.json (.array [.ofInt64 1])) (some .reference) = .ok (.literal "5b315d")
      ∧ decodePacked? "5b315d" = some (.array [.ofInt64 1])
      ∧ pythonLine { name := "ids", type := .reference } ≠ Flavor.unpackingLine "ids"
      ∧ pythonLine { name := "ids", type := .reference }
        = "ids = \"\x7b\x7binputs.parameters.ids\x7d\x7d\"" := by
  refine ⟨rfl, eq_ok_of_toOption (by decide +kernel), by decide +kernel, ?_, by decide +kernel⟩
  rw [Ne, Flavor.pythonLine_eq_unpackingLine_iff]
  nofun

end WorkflowTemplates
