import Mathlib.Data.List.Basic
import WorkflowTemplates.Proofs.Source.LineHead

/-!
# Functions that return a literal

The literal that the last statement of a function returns is its script, if it has no documentation.
A body of one line is one statement if the line ends outside strings and brackets
(`Source.statements_line`). Such a line is `return` before a written literal, since a written
literal scans as one token and ends with no backslash (`Source.endsLine_returnStatement`). It is no
documentation, because a statement that starts with a name is no string (`Source.docstring_word`),
and the literal behind the word reads back (`Source.returned?_returnStatement`). So the function
returns what was written (`Function.read_returnText`).
-/

namespace WorkflowTemplates

open Source (ScanState)
open Text (Stops Trimmed isBlank isLetter trim)

namespace Literal

variable {l : Literal}

/-- What is written for a literal ends with no backslash, so it does not continue its line. -/
theorem getLast?_written (h : l.Readable) : l.written.getLast? ≠ some '\\' := by
  have hconcat {c : Char} (hc : c ≠ '\\') (s : List Char) : (s ++ [c]).getLast? ≠ some '\\' := by
    rw [List.getLast?_concat]
    exact fun heq => hc (Option.some.inj heq)
  cases l with
  | string s => exact hconcat (by decide) _
  | integer i =>
    intro hlast
    rcases mem_integer (List.mem_of_getLast? hlast) with heq | hdigit
    · cases heq
    · cases hdigit
  | boolean b => cases b <;> decide
  | nothing => decide
  | list items => exact hconcat (by decide) _
  | dict entries => exact hconcat (by decide) _
  | call name arguments =>
    rw [written]
    exact hconcat (by decide) _
  | float x => cases h
  | complex z => cases h

/-- A name stands for no string, so a statement that starts with one is no documentation. -/
theorem readName_ne_string (bound : Nat) (s rest : List Char) (text : String) :
    readName bound s ≠ .ok (string text, rest) := by
  intro h
  cases bound with
  | zero => cases h
  | succ bound =>
    rw [readName] at h
    split at h
    · next l' _ hnamed =>
      cases h
      unfold named? at hnamed
      split at hnamed
      · cases hnamed
      split at hnamed
      · cases hnamed
      split at hnamed <;> cases hnamed
    · next t _ _ =>
      cases harguments : readArguments bound (String.ofList (s.takeWhile isNameChar)) t with
      | error fault =>
        rw [harguments] at h
        cases h
      | ok result =>
        rw [harguments] at h
        cases h
    · cases h

/-- What a literal stands for as the returned value of a function. Containers stand for their source
text, as `display` writes it, and neither the literal for no value nor a call stands for a text. -/
inductive Yields : Literal → Option String → Prop
  | string (s : String) : Yields (string s) (some s)
  | integer (i : Int64) : Yields (integer i) (some (integerText i))
  | boolean (b : Bool) : Yields (boolean b) (some (boolText b))
  | nothing : Yields nothing none
  | list (items : List Literal) : Yields (list items) (some (list items).display)
  | dict (entries : List (Literal × Literal)) : Yields (dict entries) (some (dict entries).display)
  | call (name : String) (arguments : List (String × Literal)) : Yields (call name arguments) none

/-- Every literal that reads back yields (`Yields`) the text that it stands for when it is returned.
-/
theorem yields_returnedText? (h : l.Readable) : Yields l (Source.returnedText? l) := by
  cases l with
  | string s => exact .string s
  | integer i => exact .integer i
  | boolean b => exact .boolean b
  | nothing => exact .nothing
  | list items => exact .list items
  | dict entries => exact .dict entries
  | call name arguments => exact .call name arguments
  | float x => cases h
  | complex z => cases h

end Literal

namespace Source

variable {l : Literal} {s : List Char}

/-! ## Statements -/

/-- A body of one line that ends outside strings and brackets (`EndsLine`) is one statement. -/
theorem statements_line (hs : Trimmed s) (hfree : '\n' ∉ s)
    (hstatement : isBlankOrComment s = false) (hends : EndsLine .start s) :
    statements (s ++ ['\n']) = [s] := by
  have hsplit : (s ++ ['\n']).splitOn '\n' = [s, []] := by
    rw [List.splitOn_append_cons_self, List.splitOn_eq_singleton hfree]
    rfl
  have hmarks : logicalLines [s, []] = [⟨true, s⟩, ⟨true, []⟩] := by
    rw [logicalLines, markLines_of_endsLine quoted_start hends]
    rfl
  have hmargin : Text.indentWidth s = 0 := by
    rw [Text.indentWidth, Text.leadingBlank, hs.start.takeWhile]
    rfl
  rw [statements, hsplit, hmarks, statementsFrom, statementsFrom]
  dsimp only
  rw [hstatement, hmargin]
  rfl

/-- A statement that starts with a name is no documentation, if no quote makes the first letter a
prefix of a string (`ht`). -/
theorem docstring_word {c : Char} {t : List Char} (hc : (isLetter c || c == '_') = true)
    (ht : Stops isQuote t) : docstring (c :: t) = [] := by
  rw [docstring]
  split
  · next text h =>
    obtain ⟨⟨l, rest⟩, hvalue, h⟩ := bind_eq_ok.1 h
    dsimp only at h
    rw [Literal.readValue_word hc ht] at hvalue
    split at h
    · cases h
      exact absurd hvalue (Literal.readName_ne_string _ _ _ _)
    · cases h
  · rfl

/-! ## Returning a literal -/

/-- The statement that returns a literal, as it is written. -/
def returnStatement (l : Literal) : List Char :=
  'r' :: 'e' :: 't' :: 'u' :: 'r' :: 'n' :: ' ' :: l.written

/-- The statement neither starts nor ends with a blank (`Trimmed`), as the literal does not end with
one. -/
theorem trimmed_returnStatement (h : l.Readable) : Trimmed (returnStatement l) := by
  have hword : Trimmed ['r', 'e', 't', 'u', 'r', 'n'] :=
    Text.trimmed_of_forall (Text.forall_mem_of_all (by decide))
  exact hword.around (Literal.written_trimmed h) (by decide) (Literal.written_ne_nil h) [' ']

/-- The statement is no comment, and it is not blank. -/
theorem isBlankOrComment_returnStatement (h : l.Readable) :
    isBlankOrComment (returnStatement l) = false := by
  rw [isBlankOrComment, (trimmed_returnStatement h).trim_eq]
  rfl

/-- The statement stays on its line: no line ends in a written literal. -/
theorem newline_notMem_returnStatement (h : l.Readable) : '\n' ∉ returnStatement l := by
  have hwritten := Literal.newline_notMem_written l h
  simp [returnStatement, hwritten]

/-- The statement ends its line (`EndsLine`): a written literal leaves no string and no bracket
open. -/
theorem endsLine_returnStatement (h : l.Readable) : EndsLine .start (returnStatement l) := by
  have hscans : ScanState.Scans (Literal.ValueAt 0) 0 l.written := Literal.scans_written l h 0
  have hrests : (ScanState.start.run l.written).Rests 0 := hscans.rests
  refine ⟨?_, ?_⟩
  · show ScanState.isTop (ScanState.start.run l.written) '\n' = true
    rw [ScanState.isTop, hrests.depth, hrests.isCode_eq]
    rfl
  · show (['r', 'e', 't', 'u', 'r', 'n', ' '] ++ l.written).getLast? ≠ some '\\'
    rw [List.getLast?_append_of_ne_nil _ (Literal.written_ne_nil h)]
    exact Literal.getLast?_written h

/-- The statement is no documentation, as it starts with a word. -/
theorem docstring_returnStatement (l : Literal) : docstring (returnStatement l) = [] :=
  docstring_word rfl (Text.stops_cons rfl _)

/-- **The literal that a statement returns reads back**, as the text that it stands for
(`returnedText?`). -/
theorem returned?_returnStatement (h : l.Readable) :
    returned? (returnStatement l) = returnedText? l := by
  have hexpression : returnedExpression? (returnStatement l) = some l.written := by
    have htrim : trim (' ' :: l.written) = l.written :=
      (Text.trim_blank_cons _).trans (Literal.written_trimmed h).trim_eq
    show some (trim (' ' :: l.written)) = some l.written
    rw [htrim]
  rw [returned?, hexpression]
  dsimp only
  rw [Literal.read_written h]

end Source

namespace Function

open Signature (isFunctionName)

/-- The source of a function that only returns a literal, behind an `indent` and with the given
`ending`. -/
def returnText (name : String) (l : Literal) (indent ending : List Char) : List Char :=
  nullaryText name [indent ++ Source.returnStatement l] ending

/-- **A function that returns a literal is read as returning it**: it has no documentation, and its
returned value is what the literal yields (`Yields`). -/
theorem read_returnText {name : String} (hname : isFunctionName name.toList = true) {l : Literal}
    (h : l.Readable) {indent ending : List Char} (hindent : IsIndent indent)
    (hending : ending = [] ∨ ending = ['\n']) :
    read (String.ofList (returnText name l indent ending)) = .ok {
      name
      parameters := []
      docstring := ""
      body := String.ofList (Source.returnStatement l ++ ['\n'])
      returnValue := Source.returnedText? l } := by
  have htrimmed := Source.trimmed_returnStatement h
  have hne : Source.returnStatement l ≠ [] := List.cons_ne_nil _ _
  have hfree : ∀ line ∈ [] ++ [indent ++ Source.returnStatement l], '\n' ∉ line := by
    rintro line hline
    cases List.mem_singleton.1 hline
    rw [List.mem_append, not_or]
    exact ⟨hindent.newline_notMem, Source.newline_notMem_returnStatement h⟩
  have hreturn := htrimmed.dropReturn_append hne indent
  have hbody := body?_line hindent htrimmed hne
  have hstatements := Source.statements_line htrimmed (Source.newline_notMem_returnStatement h)
    (Source.isBlankOrComment_returnStatement h) (Source.endsLine_returnStatement h)
  have hread := read_nullaryText hname hfree (List.append_ne_nil_of_right_ne_nil _ hne) hreturn
    hending (by rw [List.nil_append, List.map_singleton, hreturn, hbody])
  rw [returnText]
  refine hread.trans (congrArg Except.ok ?_)
  rw [ofBody, hstatements]
  simp [Source.docstring_returnStatement, Source.returned?_returnStatement h]

end Function

end WorkflowTemplates
