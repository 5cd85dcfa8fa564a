import WorkflowTemplates.Proofs.Script.Prologue
import WorkflowTemplates.Proofs.Text.Lines

/-!
# Sources, line by line

A prologue has a line for each parameter, in the order of the parameters. In Python there is also an
import, before the first line that needs it. The flag of the loop that writes the lines tells
whether the import was written, so it is written once at most (`count_pythonLines`), before the
first line that unpacks (`pythonLines_append`), and nothing else is written between the lines of the
parameters (`filter_pythonLines`). If no name has a line feed, these are the lines of the source
above its text, which is left as it is (`assemble_lines`).
-/

namespace WorkflowTemplates

/-- Whether a type goes by its name alone (`TypeTag.custom`), and so has packed values. -/
def TypeTag.isCustom : TypeTag → Bool
  | custom _ => true
  | _ => false

theorem TypeTag.category_eq_packed_iff {t : TypeTag} :
    t.category = .packed ↔ t.isCustom = true := by
  cases t <;> simp [category, isCustom]

namespace Flavor

variable {f : Flavor} {ds : List Declaration} {imported : Bool} {line : String}
  {lines : List String}

/-- The line that imports what `json.loads` needs in a line that unpacks. -/
def importLine : String := "import json"

/-- What Python puts around a placeholder, by the type of the value that replaces it: a text, a
closed set of texts and a reference are quoted, scalars stand bare, and the values of other types
are unpacked. It is written out for every type, where `around` goes by the category. -/
def wrapping : TypeTag → String × String
  | .string | .choice _ | .reference => ("\"", "\"")
  | .integer | .float | .boolean | .complex => ("", "")
  | .custom _ => ("json.loads(bytes.fromhex(\"", "\"))")

/-- The assignment of a parameter in Python: its name, and its placeholder in the `wrapping` of its
type. -/
def assignment (d : Declaration) : String :=
  d.name ++ " = " ++ ((wrapping d.type).1 ++ inputPlaceholder d.name ++ (wrapping d.type).2)

/-- The lines between the line feeds of a text (`List.splitOn`); a text without a line feed is one
line. -/
def linesOf (s : String) : List String :=
  (s.toList.splitOn '\n').map String.ofList

/-- Lines of Python assign all parameters, in their order, and import what unpacking needs once,
just before the first line that unpacks, or not at all if there is none. The import is told from the
assignments by being `importLine`, which no assignment is. -/
structure ImportsOnce (ds : List Declaration) (lines : List String) : Prop where
  assigns : lines.filter (· ≠ importLine) = ds.map assignment
  count : lines.count importLine = if ∃ d ∈ ds, d.type.isCustom = true then 1 else 0
  first (earlier later : List Declaration) (d : Declaration) (h : ds = earlier ++ d :: later)
    (hearlier : ∀ e ∈ earlier, e.type.isCustom = false) (hd : d.type.isCustom = true) :
    lines = earlier.map assignment ++ importLine :: assignment d :: later.map assignment

/-! ## The lines of Python -/

/-- The line of a parameter assigns it: `pythonLine` goes by the category of the type, and
`wrapping` says the same for each type. -/
theorem pythonLine_eq_assignment (d : Declaration) : pythonLine d = assignment d := by
  have hwrapping : wrapping d.type = around d.type.category := by
    cases d.type <;> rfl
  rw [assigns_pythonLine d, assignment, hwrapping]

/-- No assignment is an import: it has an equals sign, and `importLine` has none. -/
theorem assignment_ne_importLine (d : Declaration) : assignment d ≠ importLine := by
  intro h
  have hequals : '=' ∈ " = ".toList := by decide
  have hmem : '=' ∈ (assignment d).toList := by
    simp only [assignment, String.toList_append, List.mem_append, hequals, or_true, true_or]
  rw [h] at hmem
  exact absurd hmem (by decide)

/-- Without the import the lines are the assignments, whether or not the import was written before
(`imported`). -/
theorem filter_pythonLines (imported : Bool) (ds : List Declaration) :
    (pythonLines imported ds).filter (· ≠ importLine) = ds.map assignment := by
  induction ds generalizing imported with
  | nil => rfl
  | cons d rest ih =>
    have hline := assignment_ne_importLine d
    rw [pythonLines, pythonLine_eq_assignment]
    split
    · rw [← importLine]
      simpa [hline] using ih true
    · simpa [hline] using ih imported

/-- The import is written once, unless it was written before (`imported`) or nothing is to be
unpacked. -/
theorem count_pythonLines (imported : Bool) (ds : List Declaration) :
    (pythonLines imported ds).count importLine
      = if imported = false ∧ ∃ d ∈ ds, d.type.isCustom = true then 1 else 0 := by
  induction ds generalizing imported with
  | nil => simp [pythonLines]
  | cons d rest ih =>
    have hline := assignment_ne_importLine d
    rw [pythonLines, pythonLine_eq_assignment]
    split
    · next h =>
      obtain ⟨hpacked, rfl⟩ := h
      have hd := TypeTag.category_eq_packed_iff.1 hpacked
      rw [← importLine, List.count_cons_self, List.count_cons_of_ne hline, ih]
      simp [hd]
    · next h =>
      rw [List.count_cons_of_ne hline, ih]
      cases imported with
      | true => simp
      | false =>
        have hd : d.type.isCustom = false := by simpa [TypeTag.category_eq_packed_iff] using h
        simp [hd]

/-- The import stands just before the first line that unpacks; the lines of the parameters before it
are their assignments. -/
theorem pythonLines_append {earlier : List Declaration} {d : Declaration}
    (hearlier : ∀ e ∈ earlier, e.type.isCustom = false) (hd : d.type.isCustom = true)
    (later : List Declaration) :
    pythonLines false (earlier ++ d :: later)
      = earlier.map assignment ++ importLine :: assignment d :: later.map assignment := by
  have hlines : pythonLine = assignment := funext pythonLine_eq_assignment
  induction earlier with
  | nil =>
    rw [List.nil_append, pythonLines, if_pos ⟨TypeTag.category_eq_packed_iff.2 hd, rfl⟩,
      pythonLines_true, hlines]
    rfl
  | cons e earlier ih =>
    have he : ¬(e.type.category = .packed ∧ false = false) := by
      rw [TypeTag.category_eq_packed_iff, hearlier e List.mem_cons_self]
      exact fun h => Bool.false_ne_true h.1
    rw [List.cons_append, pythonLines, if_neg he,
      ih fun e he => hearlier e (List.mem_cons_of_mem _ he), hlines]
    rfl

/-- **Python imports once**, before the import is needed, whatever the parameters are
(`ImportsOnce`). -/
theorem importsOnce_pythonLines (ds : List Declaration) :
    ImportsOnce ds (pythonLines false ds) where
  assigns := filter_pythonLines false ds
  count := by
    rw [count_pythonLines]
    simp only [true_and]
  first earlier later d h hearlier hd := by
    rw [h]
    exact pythonLines_append hearlier hd later

/-! ## Line feeds -/

/-- The lines that are joined by line feeds are the lines of the text, if none of them has a line
feed of its own. -/
theorem linesOf_intercalate (h : ∀ line ∈ lines, '\n' ∉ line.toList) (hne : lines ≠ []) :
    linesOf ("\n".intercalate lines) = lines := by
  have hfree : ∀ line ∈ lines.map String.toList, '\n' ∉ line := List.forall_mem_map.2 h
  have hsplit := List.splitOn_intercalate '\n' hfree (List.map_eq_nil_iff.not.2 hne)
  rw [linesOf, String.toList_intercalate]
  exact (congrArg (List.map String.ofList) hsplit).trans (by simp)

/-- The line of a parameter in a shell, written out: the placeholder stands in double quotes,
whatever the type. -/
theorem bashLine_eq (d : Declaration) :
    bashLine d = d.name ++ "=\"\x7b\x7binputs.parameters." ++ d.name ++ "\x7d\x7d\"" := by
  have hopening : "=\"\x7b\x7binputs.parameters." = "=\"" ++ "\x7b\x7binputs.parameters." := by
    decide
  have hclosing : "\x7d\x7d\"" = "\x7d\x7d" ++ "\"" := by decide
  unfold bashLine inputPlaceholder
  rw [hopening, hclosing]
  simp only [String.append_assoc]

/-- A placeholder stands on one line if its name has no line feed: there is none in the braces of
`inputPlaceholder`. -/
theorem newline_notMem_inputPlaceholder {name : String} (h : '\n' ∉ name.toList) :
    '\n' ∉ (inputPlaceholder name).toList := by
  unfold inputPlaceholder
  simp only [String.toList_append, List.mem_append, not_or]
  exact ⟨⟨by decide, h⟩, by decide⟩

/-- A parameter is assigned on one line if its name has no line feed: there is none in its
`wrapping`. -/
theorem newline_notMem_assignment {d : Declaration} (h : '\n' ∉ d.name.toList) :
    '\n' ∉ (assignment d).toList := by
  have hwrapping : '\n' ∉ (wrapping d.type).1.toList ∧ '\n' ∉ (wrapping d.type).2.toList := by
    unfold wrapping
    split <;> decide
  simp only [assignment, String.toList_append, List.mem_append, not_or]
  exact ⟨⟨h, by decide⟩, ⟨hwrapping.1, newline_notMem_inputPlaceholder h⟩, hwrapping.2⟩

theorem newline_notMem_bashLine {d : Declaration} (h : '\n' ∉ d.name.toList) :
    '\n' ∉ (bashLine d).toList := by
  simp only [bashLine, String.toList_append, List.mem_append, not_or]
  exact ⟨⟨⟨h, by decide⟩, newline_notMem_inputPlaceholder h⟩, by decide⟩

/-- Every line of a prologue is one line if no name of a parameter has a line feed, so `linesOf`
finds these lines again. -/
theorem newline_notMem_prologueLine (hnames : ∀ d ∈ ds, '\n' ∉ d.name.toList)
    (h : line ∈ f.prologueLines ds) : '\n' ∉ line.toList := by
  cases f with
  | plain => cases h
  | bash =>
    obtain ⟨d, hd, rfl⟩ := List.mem_map.1 h
    exact newline_notMem_bashLine (hnames d hd)
  | python =>
    by_cases himport : line = importLine
    · rw [himport]
      decide
    · have hmem : line ∈ (pythonLines false ds).filter (· ≠ importLine) :=
        List.mem_filter.2 ⟨h, decide_eq_true himport⟩
      rw [filter_pythonLines] at hmem
      obtain ⟨d, hd, rfl⟩ := List.mem_map.1 hmem
      exact newline_notMem_assignment (hnames d hd)

/-! ## Sources -/

/-- Parameters have lines in every flavor but `plain`, which binds none. -/
theorem prologueLines_ne_nil (hf : f ≠ plain) (hds : ds ≠ []) : f.prologueLines ds ≠ [] := by
  cases f with
  | plain => exact absurd rfl hf
  | bash => exact List.map_eq_nil_iff.not.2 hds
  | python =>
    intro h
    have hfilter := filter_pythonLines false ds
    rw [show pythonLines false ds = [] from h] at hfilter
    exact hds (List.map_eq_nil_iff.1 hfilter.symm)

/-- A source that binds parameters is the lines of its prologue, a line feed, and its text. -/
theorem exists_assemble_eq (hf : f ≠ plain) (hds : ds ≠ [])
    (hnames : ∀ d ∈ ds, '\n' ∉ d.name.toList) (text : String) :
    ∃ prologue, f.assemble ds text = prologue ++ "\n" ++ text
      ∧ linesOf prologue = f.prologueLines ds := by
  have hne := prologueLines_ne_nil hf hds
  refine ⟨f.prologue ds, ?_, linesOf_intercalate ?_ hne⟩
  · rw [assemble_eq, String.intercalate_append_of_ne_nil hne (List.cons_ne_nil text []),
      String.intercalate_singleton, prologue]
  · exact fun line hline => newline_notMem_prologueLine hnames hline

/-- **Sources are assembled line by line.** A plain source, and any source without parameters, is
its text. Otherwise it is its text behind a prologue and a line feed. In shells the prologue has one
line for each parameter; in Python it has the assignments of the parameters, and imports what
unpacking needs once, just before the first parameter that is unpacked, if there is one
(`ImportsOnce`). -/
theorem assemble_lines (hnames : ∀ d ∈ ds, '\n' ∉ d.name.toList) (text : String) :
    plain.assemble ds text = text
      ∧ (∀ f : Flavor, f.assemble [] text = text)
      ∧ (ds ≠ [] → ∃ prologue, bash.assemble ds text = prologue ++ "\n" ++ text
        ∧ linesOf prologue = ds.map fun d =>
          d.name ++ "=\"\x7b\x7binputs.parameters." ++ d.name ++ "\x7d\x7d\"")
      ∧ (ds ≠ [] → ∃ prologue, python.assemble ds text = prologue ++ "\n" ++ text
        ∧ ImportsOnce ds (linesOf prologue)) := by
  refine ⟨rfl, fun f => by cases f <;> rfl, fun hds => ?_, fun hds => ?_⟩
  · obtain ⟨prologue, hsource, hlines⟩ := exists_assemble_eq (f := bash) nofun hds hnames text
    refine ⟨prologue, hsource, hlines.trans (List.map_congr_left fun d _ => ?_)⟩
    exact bashLine_eq d
  · obtain ⟨prologue, hsource, hlines⟩ := exists_assemble_eq (f := python) nofun hds hnames text
    refine ⟨prologue, hsource, ?_⟩
    rw [hlines]
    exact importsOnce_pythonLines ds

/-- Parameters of several types, of which the second and the fourth are unpacked. -/
def chartParameters : List Declaration := [
  { name := "title" },
  { name := "rows", type := .custom "dict" },
  { name := "scale", type := .float },
  { name := "labels", type := .custom "list" }]

/-- The import stands between the first two parameters and not before the fourth, and a text that
has one too keeps its own. -/
theorem chartParameters_assembled :
    ∃ prologue, python.assemble chartParameters "import json\n" = prologue ++ "\n" ++ "import json\n"
      ∧ linesOf prologue = [
        "title = \"\x7b\x7binputs.parameters.title\x7d\x7d\"",
        "import json",
        "rows = json.loads(bytes.fromhex(\"\x7b\x7binputs.parameters.rows\x7d\x7d\"))",
        "scale = \x7b\x7binputs.parameters.scale\x7d\x7d",
        "labels = json.loads(bytes.fromhex(\"\x7b\x7binputs.parameters.labels\x7d\x7d\"))"] := by
  have hnames : ∀ d ∈ chartParameters, '\n' ∉ d.name.toList := by decide
  obtain ⟨-, -, -, hpython⟩ := assemble_lines hnames "import json\n"
  obtain ⟨prologue, hsource, hlines⟩ := hpython (List.cons_ne_nil _ _)
  refine ⟨prologue, hsource, ?_⟩
  rw [hlines.first [{ name := "title" }]
    [{ name := "scale", type := .float }, { name := "labels", type := .custom "list" }]
    { name := "rows", type := .custom "dict" } rfl (by decide) rfl]
  decide +kernel

end Flavor

end WorkflowTemplates
