import WorkflowTemplates.Proofs.Source.LineHead
import WorkflowTemplates.Proofs.Text.Indented

/-!
# Indented sources

A function reads the same however deep its source is indented as a whole, as the methods of a class
are (`Function.read_indented`). The scanner does not see the blanks in front of a line, because at
the start of a line it is in code or inside a string (`AtLineStart`); so the same lines start
logical ones (`markLines_map_indentLine`). A line ends the body behind a definition exactly if it
does so behind the definition, since both are indented by as much more (`Line.endsBody_indent`).
What is put in front of the lines of the body goes with their margin (`body?_map_indentLine`).
-/

namespace WorkflowTemplates

open Text (dedent indentLine indentWidth isBlankLine trimStart)

namespace Source

variable {s : ScanState} {k : Nat} {line : List Char} {ls : List (List Char)}

/-! ## Blanks in front of a line -/

/-- Where a line starts: in code, or in a string that goes on over several lines, but in no comment
and behind no backslash. -/
def AtLineStart (s : ScanState) : Prop :=
  s.mode = .code
    ∨ ∃ quote, isQuote quote = true ∧ (s.mode = .short quote ∨ s.mode = .long quote 0)

/-- A text starts in code, outside brackets (`AtLineStart`). -/
theorem atLineStart_start : AtLineStart .start := .inl rfl

/-- Where a line starts (`AtLineStart`), strings are opened by quotes. -/
theorem AtLineStart.quoted (h : AtLineStart s) : Quoted s := by
  obtain ⟨depth, mode⟩ := s
  rcases h with rfl | ⟨quote, hquote, rfl | rfl⟩
  · trivial
  · exact hquote
  · exact hquote

/-- Behind a line feed a line starts, whatever state the scanner was in (`AtLineStart`). -/
theorem Quoted.atLineStart_next (h : Quoted s) : AtLineStart (s.next '\n') := by
  obtain ⟨depth, mode⟩ := s
  have hne {quote : Char} (hquote : isQuote quote = true) : '\n' ≠ quote := by
    rintro rfl
    cases hquote
  cases mode with
  | code | comment => exact .inl rfl
  | opening quote =>
    left
    simp [ScanState.next, ScanState.nextInShort, hne h]
  | openingTwo quote =>
    left
    simp only [ScanState.next, if_neg (hne h)]
    rfl
  | short quote =>
    left
    simp [ScanState.next, ScanState.nextInShort, hne h]
  | shortEscape quote => exact .inr ⟨quote, h, .inl rfl⟩
  | long quote quotes =>
    refine .inr ⟨quote, h, .inr ?_⟩
    simp [ScanState.next, hne h]
  | longEscape quote => exact .inr ⟨quote, h, .inr rfl⟩

/-- A blank at the start of a line leaves the scan where it is, also inside a string
(`AtLineStart`). -/
theorem AtLineStart.next_blank (h : AtLineStart s) : s.next ' ' = s := by
  obtain ⟨depth, mode⟩ := s
  have hne {quote : Char} (hquote : isQuote quote = true) : ' ' ≠ quote := by
    rintro rfl
    cases hquote
  rcases h with rfl | ⟨quote, hquote, rfl | rfl⟩
  · rfl
  · simp [ScanState.next, ScanState.nextInShort, hne hquote]
  · simp [ScanState.next, hne hquote]

/-- What is put in front of a line leaves the scan where it is, by induction over the blanks
(`AtLineStart`). -/
theorem AtLineStart.run_replicate (h : AtLineStart s) (k : Nat) :
    s.run (List.replicate k ' ') = s := by
  induction k with
  | zero => rfl
  | succ k ih => rw [List.replicate_succ, ScanState.run_cons, h.next_blank, ih]

/-- An indented line is scanned like the line, blank lines included, which stay as they are
(`AtLineStart`). -/
theorem AtLineStart.run_indentLine (h : AtLineStart s) (k : Nat) (line : List Char) :
    s.run (indentLine k line) = s.run line := by
  cases hblank : isBlankLine line with
  | true => rw [Text.indentLine_of_blank hblank]
  | false => rw [Text.indentLine_of_not_blank hblank, ScanState.run_append, h.run_replicate]

/-! ## Logical lines -/

/-- A logical line that is indented: it starts where it did. -/
def Line.indent (k : Nat) (line : Line) : Line :=
  { line with text := indentLine k line.text }

/-- **Indented lines start logical lines where the lines do**, by induction over the lines with the
invariant `AtLineStart`. -/
theorem markLines_map_indentLine (h : AtLineStart s) (starts : Bool) (ls : List (List Char)) :
    markLines s starts (ls.map (indentLine k)) = (markLines s starts ls).map (Line.indent k) := by
  induction ls generalizing s starts with
  | nil => rfl
  | cons line ls ih =>
    have hnext : AtLineStart ((s.run line).next '\n') := (h.quoted.run line).atLineStart_next
    rw [List.map_cons, markLines, h.run_indentLine, Text.getLast?_indentLine, ih hnext]
    rfl

/-- An indented line is blank or a comment if the line is, since blanks in front do not count. -/
theorem isBlankOrComment_indentLine (k : Nat) (line : List Char) :
    isBlankOrComment (indentLine k line) = isBlankOrComment line := by
  rw [isBlankOrComment, Text.trim_indentLine, isBlankOrComment]

/-- An indented line ends a body behind an indented definition exactly if the line does so behind
the definition: both widths grow by `k`. -/
theorem Line.endsBody_indent (k indent : Nat) (line : Line) :
    (line.indent k).endsBody (indent + k) = line.endsBody indent := by
  obtain ⟨starts, text⟩ := line
  rw [Line.indent, endsBody, endsBody]
  dsimp only
  rw [isBlankOrComment_indentLine]
  cases hblank : isBlankLine text with
  | true => simp [isBlankOrComment_of_blank hblank]
  | false => simp [Text.indentWidth_indentLine hblank]

/-! ## Bodies -/

/-- The lines of the body are the indented ones, as many as before. -/
theorem bodyLines_map_indentLine (k indent : Nat) (ls : List (List Char)) :
    bodyLines (indent + k) (ls.map (indentLine k)) = (bodyLines indent ls).map (indentLine k) := by
  have hends :
      ((!·.endsBody (indent + k)) ∘ Line.indent k : Line → Bool) = (!·.endsBody indent) := by
    funext line
    simp [Line.endsBody_indent]
  rw [bodyLines, logicalLines, markLines_map_indentLine atLineStart_start, List.takeWhile_map,
    hends, bodyLines, logicalLines, List.map_map, List.map_map]
  rfl

/-- **Indented lines have the same body**, behind a definition that is indented by as much: what is
put in front of them goes with their margin. -/
theorem body?_map_indentLine (k indent : Nat) (ls : List (List Char)) :
    body? (indent + k) (ls.map (indentLine k)) = body? indent ls := by
  rw [body?_eq, bodyLines_map_indentLine, body?_eq]
  exact ofBodyLines?_map (Text.isBlankLine_indentLine k) (Text.dedent_map_indentLine k) _

end Source

/-! ## Heads -/

namespace Signature

variable {word s : List Char}

/-- Any bound that is not less than the length of a text suffices to drop a word in front of it, so
the bound of `dropWord` does not show. -/
theorem dropWord_bound (hword : word ≠ []) {n m : Nat} (hn : s.length ≤ n) (hm : s.length ≤ m) :
    dropWord word n s = dropWord word m s := by
  induction n generalizing m s with
  | zero =>
    obtain rfl : s = [] := List.eq_nil_of_length_eq_zero (by omega)
    cases m with
    | zero => rfl
    | succ m => simp [dropWord, hword]
  | succ n ih =>
    have hpos := List.length_pos_iff.2 hword
    cases m with
    | zero =>
      obtain rfl : s = [] := List.eq_nil_of_length_eq_zero (by omega)
      simp [dropWord, hword]
    | succ m =>
      rw [dropWord, dropWord]
      split
      · exact ih (by simp only [List.length_drop]; omega) (by simp only [List.length_drop]; omega)
      · rfl

/-- Blanks in front of a head are not read by `ofHead`. -/
theorem ofHead_replicate (k : Nat) (head : List Char) :
    ofHead (List.replicate k ' ' ++ head) = ofHead head := by
  have hstart : trimStart (List.replicate k ' ' ++ head) = trimStart head :=
    List.dropWhile_append_of_pos fun c hc => Text.isBlank_of_mem_replicate hc
  have hlength : (trimStart head).length ≤ head.length := List.length_dropWhile_le _ _
  have hbound : (trimStart head).length ≤ (List.replicate k ' ' ++ head).length := by
    rw [List.length_append]
    omega
  have hword : "async".toList ≠ [] := List.cons_ne_nil _ _
  have hasync := dropWord_bound hword hbound hlength
  have hbehind : behindDef (List.replicate k ' ' ++ head) = behindDef head := by
    rw [behindDef, hstart, hasync, behindDef]
  rw [ofHead, hbehind, ofHead]

/-- A head ends at its colon behind blanks too, and the blanks are part of the head. -/
theorem breakHead_replicate (k : Nat) (seen : Bool) (text : List Char) :
    breakHead seen .start (List.replicate k ' ' ++ text)
      = (breakHead seen .start text).map fun (head, behind) =>
          (List.replicate k ' ' ++ head, behind) := by
  induction k with
  | zero => cases h : breakHead seen .start text <;> simp [h]
  | succ k ih =>
    have hseen : (seen || (Source.ScanState.start.isCode ' ' && ' ' == '(')) = seen := by simp
    have hnext : Source.ScanState.start.next ' ' = .start := rfl
    rw [List.replicate_succ, List.cons_append, breakHead]
    dsimp only
    rw [hseen, hnext, ih]
    cases breakHead seen .start text <;> simp

end Signature

/-! ## Functions -/

namespace Function

variable {ls : List (List Char)} {first head line : List Char} {f : Function}

/-- The head of the first function of a source ends on the line on which it starts. A head over
several lines would have blanks put inside of it. -/
def HasLineHead (source : String) : Prop :=
  ∃ before first rest head line,
    findDefinition? (Text.lines source.toList) = some (before, first, rest)
      ∧ Signature.breakHead false .start first = some (head, line)

/-- A definition is found on the indented line, behind as many lines as before. -/
theorem findDefinition?_map_indentLine (k : Nat) (ls : List (List Char)) :
    findDefinition? (ls.map (indentLine k))
      = (findDefinition? ls).map fun (n, first, rest) =>
          (n, indentLine k first, rest.map (indentLine k)) := by
  induction ls with
  | nil => rfl
  | cons line ls ih =>
    have hline : isDefinition (indentLine k line) = isDefinition line := by
      rw [isDefinition, Text.trimStart_indentLine, isDefinition]
    rw [List.map_cons, findDefinition?, hline, findDefinition?]
    split
    · rfl
    · rw [ih, Option.map_map, Option.map_map]
      rfl

/-- The line of a definition is not blank, so blanks are put in front of it. -/
theorem not_blank_of_findDefinition? {before : Nat} {rest : List (List Char)}
    (h : findDefinition? ls = some (before, first, rest)) : isBlankLine first = false := by
  have hdefinition : isDefinition first = true := by
    induction ls generalizing before with
    | nil => cases h
    | cons line ls ih =>
      rw [findDefinition?] at h
      split at h
      · next hline =>
        cases h
        exact hline
      · obtain ⟨⟨n, first', rest'⟩, hrest, heq⟩ := Option.map_eq_some_iff.1 h
        cases heq
        exact ih hrest
  exact isBlankLine_of_isDefinition hdefinition

/-- **Indentation does not matter.** A source whose function has a head on one line (`HasLineHead`)
is read as the same function if blanks are put in front of all of its lines, the blank ones apart:
what the body holds of nested blocks, strings over several lines, continued lines and comments is
read as before. -/
theorem read_indented {source : String} (h : read source = .ok f) (hhead : HasLineHead source)
    (k : Nat) : read (String.ofList (Text.indented k source.toList)) = .ok f := by
  obtain ⟨before, first, rest, head, line, hfound, hbreak⟩ := hhead
  have hfree : '\n' ∉ first := Text.newline_notMem_of_mem_lines
    (subset_of_findDefinition? hfound List.mem_cons_self)
  have hblank := not_blank_of_findDefinition? hfound
  obtain ⟨hline, signature, body, hsignature, hbody, rfl⟩ :=
    (ofLines_lineHead hfound hfree hbreak).1 h
  have hfound' : findDefinition? ((Text.lines source.toList).map (indentLine k))
      = some (before, indentLine k first, rest.map (indentLine k)) := by
    rw [findDefinition?_map_indentLine, hfound]
    rfl
  have hbreak' : Signature.breakHead false .start (indentLine k first)
      = some (List.replicate k ' ' ++ head, line) := by
    rw [Text.indentLine_of_not_blank hblank, Signature.breakHead_replicate, hbreak]
    rfl
  have hfree' := Text.newline_notMem_indentLine hfree k
  rw [read, String.toList_ofList, Text.lines_indented]
  refine (ofLines_lineHead hfound' hfree' hbreak').2 ⟨hline, signature, body, ?_, ?_, rfl⟩
  · rw [Signature.ofHead_replicate, hsignature]
  · rw [Text.indentWidth_indentLine hblank, Source.body?_map_indentLine, hbody]

/-- A method with a nested block, a string over several lines, a continued line, brackets over
several lines, comments and tabs in its body. -/
def methodSource : String :=
  "@step\ndef pick(self, n: int = 2): # one\n\tif n:\n\t  x = '''a\n\t\tb\n\t c'''\n\n\t# two\n"
    ++ "\ty = x + \\\n\t 1\n\treturn (\n\t'x'\n\t  'y')\n"

/-- The method is read the same if it is indented by four blanks, as it would be in a class. -/
theorem methodSource_read_indented :
    ∃ f, read methodSource = .ok f ∧ f.returnValue = some "xy"
      ∧ read (String.ofList (Text.indented 4 methodSource.toList)) = .ok f := by
  have hreturns : (read methodSource).toOption.bind (·.returnValue) = some "xy" := by
    decide +kernel
  obtain ⟨f, hf, hvalue⟩ := Option.bind_eq_some_iff.1 hreturns
  have hhead : HasLineHead methodSource :=
    ⟨1, "def pick(self, n: int = 2): # one".toList, (Text.lines methodSource.toList).drop 2,
      "def pick(self, n: int = 2)".toList, " # one".toList, by decide +kernel, by decide +kernel⟩
  exact ⟨f, eq_ok_of_toOption hf, hvalue, read_indented (eq_ok_of_toOption hf) hhead 4⟩

end Function

end WorkflowTemplates
