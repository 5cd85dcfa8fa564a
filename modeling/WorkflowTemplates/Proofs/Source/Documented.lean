import WorkflowTemplates.Proofs.Source.LineHead
import WorkflowTemplates.Proofs.Source.LongString

/-!
# Functions with a documentation

The documentation of a function may be a block of lines between two lines of quotes. The block and
the quotes are the body (`Function.body?_quotedBlock`); they are one statement, since no logical
line starts behind the first quotes (`Source.statements_quoted`), and the string that it is has the
lines of the block without the indentation of the body. Their own margin is taken away from them
when they become the documentation (`Source.docstring_quoted`). So it is the block without its
margin, trimmed (`Function.read_documentedText`).
-/

namespace WorkflowTemplates

open Text (BlockLine Trimmed ended isBlankLine joinLines trim)

namespace Source

variable {base : Nat} {block : List BlockLine} {ls : List (List Char)}

/-- A block between lines of quotes, which stand at the indentation of the block. -/
def quotedBlock (block : List BlockLine) : List BlockLine :=
  .text 0 longQuotes :: block ++ [.text 0 longQuotes]

/-- The texts of a block have neither quotes nor backslashes (`Unquoted`), so the quotes around it
are where the string ends. -/
def UnquotedBlock (block : List BlockLine) : Prop :=
  ∀ extra s, BlockLine.text extra s ∈ block → Unquoted s

/-- Quotes are a line of a block (`BlockLine.WellFormed`): they start with no blank and stay on
their line. -/
theorem wellFormed_longQuotes : (BlockLine.text 0 longQuotes).WellFormed :=
  ⟨by decide, trimmed_longQuotes, by decide⟩

/-- Between quotes, too, the lines are lines of a block, so what is known of blocks holds of them.
-/
theorem wellFormed_quotedBlock (h : ∀ l ∈ block, l.WellFormed) :
    ∀ l ∈ quotedBlock block, l.WellFormed := by
  intro l hl
  rcases List.mem_cons.1 hl with rfl | hl
  · exact wellFormed_longQuotes
  rcases List.mem_append.1 hl with hl | hl
  · exact h l hl
  · rw [List.mem_singleton.1 hl]
    exact wellFormed_longQuotes

/-- Blanks have no quotes, so indented lines have none if their texts have none (`Unquoted`). -/
theorem unquoted_replicate (k : Nat) : Unquoted (List.replicate k ' ') := by
  refine unquoted_blank ?_
  rw [isBlankLine, List.all_eq_true]
  intro c hc
  rw [(List.mem_replicate.1 hc).2]
  rfl

/-- No line of a block, as it is shown, has quotes if no text has (`UnquotedBlock`), whatever margin
`m` is taken away. -/
theorem unquoted_shown (hplain : UnquotedBlock block) (m : Nat) :
    ∀ line ∈ block.map (BlockLine.shown m), Unquoted line := by
  refine List.forall_mem_map.2 fun l hl => ?_
  cases l with
  | blank w => exact unquoted_nil
  | text extra s => exact (unquoted_replicate _).append (hplain extra s hl)

/-- What is shown of a line stays on its line: neither blanks nor the text of a line have a line
feed. -/
theorem newline_notMem_shown (h : ∀ l ∈ block, l.WellFormed) (m : Nat) :
    ∀ line ∈ block.map (BlockLine.shown m), '\n' ∉ line := by
  refine List.forall_mem_map.2 fun l hl => ?_
  cases l with
  | blank w => exact List.not_mem_nil
  | text extra s =>
    intro hm
    rcases List.mem_append.1 hm with hm | hm
    · cases (List.mem_replicate.1 hm).2
    · exact (h _ hl).2.2 hm

/-! ## The statement -/

/-- Lines between quotes are one statement: no logical line starts before the string is closed
(`Unquoted`). -/
theorem statements_quoted (h : ∀ line ∈ ls, Unquoted line) (hfree : ∀ line ∈ ls, '\n' ∉ line) :
    statements (ended (longQuotes :: ls ++ [longQuotes]))
      = [longQuotes ++ ('\n' :: ended ls) ++ longQuotes] := by
  have hlines : ∀ line ∈ longQuotes :: ls ++ [longQuotes], '\n' ∉ line := by
    have hquotes : '\n' ∉ longQuotes := by decide
    intro line hline
    rcases List.mem_cons.1 hline with rfl | hline
    · exact hquotes
    rcases List.mem_append.1 hline with hline | hline
    · exact hfree line hline
    · rwa [List.mem_singleton.1 hline]
  have hcloses : Closes (ls ++ [longQuotes]) := closes_concat h unquoted_nil
  have hopen : ScanState.start.run longQuotes = ⟨0, .long '"' 0⟩ := rfl
  have hmarks : logicalLines (longQuotes :: (ls ++ [longQuotes] ++ [[]]))
      = ⟨true, longQuotes⟩ :: ((ls ++ [longQuotes]).map (⟨false, ·⟩) ++ [⟨true, []⟩]) :=
    (StringLines.cons unquoted_nil hcloses).markLines_eq hopen [[]]
  have hfirst (rest : List Line) :
      statementsFrom none (⟨true, longQuotes⟩ :: rest) = statementsFrom (some longQuotes) rest :=
    rfl
  have hlast (s : List Char) : statementsFrom (some s) [⟨true, []⟩] = [s] := rfl
  rw [statements, Text.splitOn_ended hlines, List.cons_append, List.cons_append, hmarks, hfirst,
    statementsFrom_within, Option.map_some, hlast, List.flatMap_append, List.flatMap_singleton,
    ← flatMap_newline]
  simp

/-! ## The documentation -/

/-- A blank at the end is trimmed away, here a line feed. -/
theorem trim_newline (s : List Char) : trim (s ++ ['\n']) = trim s := by
  have hend : Text.trimEnd (s ++ ['\n']) = Text.trimEnd s := Text.trimEnd_append rfl s
  rw [← Text.trim_trimEnd, hend, Text.trim_trimEnd]

/-- Lines that are each ended are trimmed like the same lines with line feeds only between them. -/
theorem trim_ended (ls : List (List Char)) : trim (ended ls) = trim (joinLines ls) := by
  rcases List.eq_nil_or_concat ls with rfl | ⟨init, last, rfl⟩
  · rfl
  · rw [List.concat_eq_append, Text.joinLines_append (List.cons_ne_nil last []),
      Text.joinLines_singleton, ← trim_newline (ended init ++ last), List.append_assoc]
    congr 1
    simp [ended]

/-- **The documentation that a block between quotes is**: its lines without their margin, the
indentation of the least indented one, trimmed. -/
theorem docstring_quoted (h : ∀ l ∈ block, l.WellFormed) (hplain : UnquotedBlock block) :
    docstring (longQuotes ++ ('\n' :: ended (block.map (BlockLine.shown 0))) ++ longQuotes)
      = trim (joinLines (block.map (BlockLine.shown (BlockLine.least block)))) := by
  have hunquoted : Unquoted ('\n' :: ended (block.map (BlockLine.shown 0))) := by
    have hnewline : Unquoted ['\n'] := ⟨by decide, by decide⟩
    exact hnewline.append (unquoted_ended (unquoted_shown hplain 0))
  have hreturn : (block.map (BlockLine.shown 0)).map Text.dropReturn
      = block.map (BlockLine.shown 0) := by
    rw [List.map_map]
    refine List.map_congr_left fun l hl => ?_
    cases l with
    | blank w => rfl
    | text extra s => exact (h _ hl).2.1.dropReturn_append (h _ hl).1 _
  have hlines : Text.lines ('\n' :: ended (block.map (BlockLine.shown 0)))
      = [] :: block.map (BlockLine.shown 0) := by
    have hcons := Text.lines_cons (List.not_mem_nil : '\n' ∉ [])
      (ended (block.map (BlockLine.shown 0)))
    rw [Text.lines_ended (newline_notMem_shown h 0), hreturn] at hcons
    exact hcons
  rw [docstring, Literal.read_long hunquoted]
  dsimp only
  rw [documentation, String.toList_ofList, hlines]
  show trim (Text.dedent (block.map (BlockLine.shown 0))) = _
  rw [BlockLine.dedent_shown h, trim_ended]

end Source

namespace Function

open Signature (isFunctionName)
open Source (UnquotedBlock quotedBlock)

variable {name : String} {base : Nat} {block : List BlockLine}

/-- The source of a function that only has a documentation: a block of lines between quotes
(`quotedBlock`), at column `base`. -/
def documentedText (name : String) (base : Nat) (block : List BlockLine) (ending : List Char) :
    List Char :=
  nullaryText name ((quotedBlock block).map (BlockLine.line base)) ending

/-- The body of the function is the block between the quotes, without the indentation of the body.
-/
theorem body?_quotedBlock (hbase : 0 < base) (h : ∀ l ∈ block, l.WellFormed) :
    Source.body? 0 ((quotedBlock block).map (BlockLine.line base))
      = some (ended ((quotedBlock block).map (BlockLine.shown 0))) := by
  have hleast : BlockLine.least (quotedBlock block) = 0 :=
    BlockLine.least_eq_zero List.mem_cons_self
  have hbody := Source.body?_block (Source.wellFormed_quotedBlock h) hbase
  rwa [← quotedBlock, hleast] at hbody

/-- The function is read as its name and the block between the quotes (`ofBody`); carriage returns
at the end of blank lines are not in it. -/
theorem read_eq_ofBody (hname : isFunctionName name.toList = true) (hbase : 0 < base)
    (h : ∀ l ∈ block, l.WellFormed) {ending : List Char}
    (hending : ending = [] ∨ ending = ['\n']) :
    read (String.ofList (documentedText name base block ending))
      = .ok (ofBody ⟨name, []⟩
          (ended (Source.longQuotes :: block.map (BlockLine.shown 0) ++ [Source.longQuotes]))) := by
  let quotes := BlockLine.text 0 Source.longQuotes
  have hquotes : (quotedBlock block).map (BlockLine.line base)
      = (quotes :: block).map (BlockLine.line base) ++ [quotes.line base] := by
    rw [quotedBlock, List.map_append, List.map_singleton]
  have hwellFormed := Source.wellFormed_quotedBlock h
  have hfree : ∀ line ∈ (quotes :: block).map (BlockLine.line base) ++ [quotes.line base],
      '\n' ∉ line := by
    rw [← hquotes]
    exact List.forall_mem_map.2 fun l hl => BlockLine.newline_notMem_line (hwellFormed l hl) base
  have hne : quotes.line base ≠ [] := List.append_ne_nil_of_right_ne_nil _ (List.cons_ne_nil _ _)
  have hreturn : Text.dropReturn (quotes.line base) = quotes.line base :=
    BlockLine.dropReturn_line Source.wellFormed_longQuotes base
  -- The lines as they are read are the block between quotes again.
  have hchomped : (quotedBlock block).map BlockLine.chomped
      = quotedBlock (block.map BlockLine.chomped) := by
    simp [quotedBlock, BlockLine.chomped]
  have hbody := body?_quotedBlock hbase (List.forall_mem_map.2 fun l hl => (h l hl).chomped)
  have hshown : (quotedBlock (block.map BlockLine.chomped)).map (BlockLine.shown 0)
      = Source.longQuotes :: block.map (BlockLine.shown 0) ++ [Source.longQuotes] := by
    have hmap : (block.map BlockLine.chomped).map (BlockLine.shown 0)
        = block.map (BlockLine.shown 0) := by
      rw [List.map_map]
      exact List.map_congr_left fun l _ => BlockLine.shown_chomped 0 l
    rw [quotedBlock, List.map_append, List.map_cons, hmap]
    rfl
  rw [documentedText, hquotes]
  refine read_nullaryText hname hfree hne hreturn hending ?_
  rw [← hquotes, BlockLine.map_dropReturn_block hwellFormed, hchomped, hbody, hshown]

/-- **The documentation of a function is what its lines show.** The source of a function may have,
between two lines of quotes at the indentation of its body, any lines that are blank or are indented
at least as deep, as long as no text on them has a quote or a backslash (`UnquotedBlock`). The
documentation is then these lines without their common indentation, blank ones being empty, trimmed;
and it is the script if there is one. -/
theorem read_documentedText (hname : isFunctionName name.toList = true) (hbase : 0 < base)
    (h : ∀ l ∈ block, l.WellFormed) (hplain : UnquotedBlock block) {ending : List Char}
    (hending : ending = [] ∨ ending = ['\n']) :
    ∃ f, read (String.ofList (documentedText name base block ending)) = .ok f ∧ f.name = name
      ∧ f.parameters = []
      ∧ f.docstring
        = String.ofList (trim (joinLines (block.map (BlockLine.shown (BlockLine.least block)))))
      ∧ (f.docstring ≠ "" → f.scriptText = f.docstring) := by
  have hstatements := Source.statements_quoted (Source.unquoted_shown hplain 0)
    (Source.newline_notMem_shown h 0)
  refine ⟨_, read_eq_ofBody hname hbase h hending, rfl, rfl, ?_, ?_⟩
  · rw [ofBody, hstatements, ← Source.docstring_quoted h hplain]
    rfl
  · intro hne
    rw [scriptText, if_neg hne]

/-- A shell script with a blank line of blanks and a carriage return, a line that looks like a
definition, a comment and brackets that are not closed. -/
def shellBlock : List BlockLine := [
  .text 4 "def f(x): # it's".toList,
  .blank "  \r".toList,
  .text 2 "for i in $(seq 3; do".toList,
  .text 5 "# [\x7b".toList]

/-- The shell script is the documentation of the function that it is written in, without the two
columns that all of its lines have in common. -/
theorem shellBlock_documents :
    ∃ f, read (String.ofList (documentedText "run" 3 shellBlock ['\n'])) = .ok f ∧ f.name = "run"
      ∧ f.parameters = []
      ∧ f.docstring = "def f(x): # it's\n\nfor i in $(seq 3; do\n   # [\x7b"
      ∧ f.scriptText = f.docstring := by
  have hwellFormed : ∀ l ∈ shellBlock, l.WellFormed := by
    intro l hl
    simp only [shellBlock, List.mem_cons, List.not_mem_nil, or_false] at hl
    rcases hl with rfl | rfl | rfl | rfl
    · exact ⟨by decide, Text.trimmed_of_ends (by decide) (by decide), by decide⟩
    · exact ⟨by decide, by decide⟩
    · exact ⟨by decide, Text.trimmed_of_ends (by decide) (by decide), by decide⟩
    · exact ⟨by decide, Text.trimmed_of_ends (by decide) (by decide), by decide⟩
  have hplain : UnquotedBlock shellBlock := by
    intro extra s hs
    simp only [shellBlock, List.mem_cons, List.not_mem_nil, or_false, BlockLine.text.injEq,
      reduceCtorEq, false_or] at hs
    rcases hs with ⟨-, rfl⟩ | ⟨-, rfl⟩ | ⟨-, rfl⟩ <;> exact ⟨by decide, by decide⟩
  have hrun : isFunctionName "run".toList = true := by decide
  have hbase : 0 < 3 := by decide
  obtain ⟨f, hread, hname, hparameters, hdocstring, hscript⟩ :=
    read_documentedText hrun hbase hwellFormed hplain (.inr rfl)
  have hshown : f.docstring = "def f(x): # it's\n\nfor i in $(seq 3; do\n   # [\x7b" :=
    hdocstring.trans (by decide +kernel)
  exact ⟨f, hread, hname, hparameters, hshown, hscript (by rw [hshown]; decide)⟩

end Function

end WorkflowTemplates
