import Mathlib.Data.List.Forall2
import WorkflowTemplates.Script.Source

/-!
# Prologues bind parameters one by one

An assembled source is the lines of its prologue and the text, one below the other, whether or not
there are lines (`Flavor.assemble_eq`). In shells and in Python every parameter is assigned to its
name on a line of its own, in the order of the parameters, and what unpacking needs is imported just
before the first line that unpacks (`Flavor.binds_assemble`).
-/

namespace WorkflowTemplates.Flavor

variable {f : Flavor} {d : Declaration} {ds : List Declaration} {line text : String}
  {lines : List String}

/-- What stands around the value of a parameter in Python: texts and references are quoted, scalars
stand bare, and packed values are unpacked. -/
def around : Category → String × String
  | .text | .reference => ("\"", "\"")
  | .scalar => ("", "")
  | .packed => ("json.loads(bytes.fromhex(\"", "\"))")

/-- A line of a script that assigns the value of a parameter to the name of the parameter: as a
quoted word in shells, and in Python as what `around` makes of it. A plain script assigns nothing.
-/
def Assigns (f : Flavor) (d : Declaration) (line : String) : Prop :=
  match f with
  | plain => False
  | bash => line = d.name ++ "=" ++ ("\"" ++ inputPlaceholder d.name ++ "\"")
  | python => line = d.name ++ " = "
      ++ ((around d.type.category).1 ++ inputPlaceholder d.name ++ (around d.type.category).2)

/-- Lines that bind parameters: one for each of them, in their order (`Assigns`), and an import
before the first one that Python has to unpack. In `importing` the parameters before the import need
none, and the one behind it does. -/
inductive BindingLines (f : Flavor) : List Declaration → List String → Prop
  | direct {ds : List Declaration} {lines : List String} (h : List.Forall₂ f.Assigns ds lines)
    (hplain : f = python → ∀ d ∈ ds, d.type.category ≠ .packed) : BindingLines f ds lines
  | importing {earlier later : List Declaration} {d : Declaration} {before after : List String}
    (hf : f = python) (h : List.Forall₂ f.Assigns earlier before)
    (hplain : ∀ d ∈ earlier, d.type.category ≠ .packed) (hd : d.type.category = .packed)
    (hafter : List.Forall₂ f.Assigns (d :: later) after) :
    BindingLines f (earlier ++ d :: later) (before ++ "import json" :: after)

/-- A source that binds parameters on the lines above a text, to which nothing is done
(`BindingLines`). -/
def Binds (f : Flavor) (ds : List Declaration) (text source : String) : Prop :=
  ∃ lines, f.BindingLines ds lines ∧ source = "\n".intercalate (lines ++ [text])

/-! ## Lines -/

theorem assigns_bashLine (d : Declaration) : Assigns bash d (bashLine d) := by
  have hquote : "=\"" = "=" ++ "\"" := by decide
  rw [Assigns, bashLine, hquote]
  simp only [String.append_assoc]

theorem assigns_pythonLine (d : Declaration) : Assigns python d (pythonLine d) := by
  have hquote : " = \"" = " = " ++ "\"" := by decide
  have hunpack : " = json.loads(bytes.fromhex(\"" = " = " ++ "json.loads(bytes.fromhex(\"" := by
    decide
  unfold Assigns pythonLine
  cases d.type.category with
  | text | reference => simp only [around, hquote, String.append_assoc]
  | scalar => simp only [around, String.append_empty, String.empty_append, String.append_assoc]
  | packed => simp only [around, hunpack, String.append_assoc]

theorem assigns_map_bashLine (ds : List Declaration) :
    List.Forall₂ (Assigns bash) ds (ds.map bashLine) := by
  simp [List.forall₂_map_right_iff, List.forall₂_same, assigns_bashLine]

theorem assigns_map_pythonLine (ds : List Declaration) :
    List.Forall₂ (Assigns python) ds (ds.map pythonLine) := by
  simp [List.forall₂_map_right_iff, List.forall₂_same, assigns_pythonLine]

/-- Behind the import every parameter has its line and nothing else, since `pythonLines` knows that
the import was written. -/
theorem pythonLines_true (ds : List Declaration) : pythonLines true ds = ds.map pythonLine := by
  induction ds with
  | nil => rfl
  | cons d rest ih => simp [pythonLines, ih]

/-- The lines of Python bind the parameters, by induction over them: the first one that is packed
ends the case `direct`. -/
theorem bindingLines_pythonLines (ds : List Declaration) :
    BindingLines python ds (pythonLines false ds) := by
  induction ds with
  | nil => exact .direct .nil fun _ _ hd => absurd hd List.not_mem_nil
  | cons d rest ih =>
    by_cases hpacked : d.type.category = .packed
    · have hlines : pythonLines false (d :: rest)
          = [] ++ "import json" :: (d :: rest).map pythonLine := by
        simp [pythonLines, hpacked, pythonLines_true]
      rw [hlines]
      exact .importing rfl .nil (fun _ hd => absurd hd List.not_mem_nil) hpacked
        (assigns_map_pythonLine _)
    have hlines : pythonLines false (d :: rest) = pythonLine d :: pythonLines false rest := by
      simp [pythonLines, hpacked]
    rw [hlines]
    generalize pythonLines false rest = restLines at ih ⊢
    cases ih with
    | direct h hplain =>
      refine .direct (.cons (assigns_pythonLine d) h) fun hf => ?_
      simpa [hpacked] using hplain hf
    | importing hf h hplain hd hafter =>
      refine .importing hf (.cons (assigns_pythonLine d) h) ?_ hd hafter
      simpa [hpacked] using hplain

/-- The lines of a prologue bind the parameters, if the flavor binds any, that is, if it is not
`plain`. -/
theorem bindingLines_prologueLines (hf : f ≠ plain) (ds : List Declaration) :
    f.BindingLines ds (f.prologueLines ds) := by
  cases f with
  | plain => exact absurd rfl hf
  | bash => exact .direct (assigns_map_bashLine ds) nofun
  | python => exact bindingLines_pythonLines ds

/-- A line that assigns is not empty: it has at least the sign of the assignment (`Assigns`). -/
theorem Assigns.ne_empty (h : f.Assigns d line) : line ≠ "" := by
  cases f with
  | plain => exact h.elim
  | bash | python =>
    rw [h]
    simp

/-- Lines that assign (`Assigns`) are not empty, so joining them loses none. -/
theorem ne_empty_of_assigns (h : List.Forall₂ f.Assigns ds lines) : ∀ line ∈ lines, line ≠ "" := by
  have hboth : List.Forall₂ (fun line d => line ≠ "" ∧ f.Assigns d line) lines ds :=
    h.flip.imp fun _ _ hline => ⟨Assigns.ne_empty hline, hline⟩
  exact ((List.forall₂_and_left lines ds).1 hboth).1

/-- Lines that bind are not empty, the import among them included (`BindingLines`). -/
theorem BindingLines.ne_empty (h : f.BindingLines ds lines) : ∀ line ∈ lines, line ≠ "" := by
  cases h with
  | direct h hplain => exact ne_empty_of_assigns h
  | importing hf h hplain hd hafter =>
    intro line hline
    simp only [List.mem_append, List.mem_cons] at hline
    rcases hline with hline | rfl | hline
    · exact ne_empty_of_assigns h line hline
    · simp
    · exact ne_empty_of_assigns hafter line hline

/-- No line of a prologue is empty, whatever the flavor: `plain` has none at all. -/
theorem ne_empty_of_mem_prologueLines (h : line ∈ f.prologueLines ds) : line ≠ "" := by
  by_cases hf : f = plain
  · subst hf
    cases h
  · exact (bindingLines_prologueLines hf ds).ne_empty line h

/-! ## Sources -/

/-- An assembled source is the lines of the prologue and the text, one below the other; `assemble`
tells the case without lines apart, which this equation does not need. -/
theorem assemble_eq : f.assemble ds text = "\n".intercalate (f.prologueLines ds ++ [text]) := by
  unfold assemble prologue
  cases hlines : f.prologueLines ds with
  | nil => simp
  | cons line rest =>
    -- The prologue is told from none by its text, so its first line must not be empty.
    have hmem : line ∈ f.prologueLines ds := by simp [hlines]
    have hline := ne_empty_of_mem_prologueLines hmem
    have hprologue : "\n".intercalate (line :: rest) ≠ "" := by
      cases rest <;> simp [hline]
    rw [String.intercalate_append_of_ne_nil (by simp) (by simp)]
    simp [hprologue]

/-- **Sources bind parameters.** In shells and in Python what `assemble` makes of parameters and a
text binds the parameters above the text. -/
theorem binds_assemble (hf : f ≠ plain) : f.Binds ds text (f.assemble ds text) :=
  ⟨f.prologueLines ds, bindingLines_prologueLines hf ds, assemble_eq⟩

end WorkflowTemplates.Flavor
