import WorkflowTemplates.Proofs.Source.Body
import WorkflowTemplates.Proofs.Source.Scalars
import WorkflowTemplates.Proofs.Source.StringReader

/-!
# Strings over several lines

Inside a long string the scan stays where it is up to the quotes that end it, if there are neither
quotes nor backslashes before them (`run_unquoted`). So no logical line starts on the lines that the
string goes on over (`Closes.markLines_eq`, `StringLines.markLines_eq`), and in a body they belong
to the statement that opens the string (`statementsFrom_within`). The string reads as exactly the
text between the quotes (`Literal.read_long`).
-/

namespace WorkflowTemplates

open Text (ended isBlank isBlankLine)

/-- A text in which neither a quote nor a backslash stands, so that it is the same between long
quotes as outside. The quote is the double one of `longQuotes`. -/
def Source.Unquoted (s : List Char) : Prop :=
  '"' ∉ s ∧ '\\' ∉ s

/-- The quotes around a long string: three double ones. -/
def Source.longQuotes : List Char := ['"', '"', '"']

namespace Source

variable {a b s line front first : List Char} {ls more : List (List Char)}

/-- No text has no quotes, so the empty text may stand between long quotes (`Unquoted`). -/
theorem unquoted_nil : Unquoted [] := ⟨List.not_mem_nil, List.not_mem_nil⟩

/-- Quotes are not blank, so `longQuotes` are not trimmed. -/
theorem trimmed_longQuotes : Text.Trimmed longQuotes :=
  Text.trimmed_of_forall (Text.forall_mem_of_all (by decide))

/-- Two texts have no quotes (`Unquoted`) if neither has. -/
theorem Unquoted.append (ha : Unquoted a) (hb : Unquoted b) : Unquoted (a ++ b) := by
  simp [Unquoted, ha.1, ha.2, hb.1, hb.2]

/-- A text with no other characters than one without quotes has none, for example a trimmed one
(`Unquoted`). -/
theorem Unquoted.subset (hb : Unquoted b) (h : a ⊆ b) : Unquoted a :=
  ⟨fun hm => hb.1 (h hm), fun hm => hb.2 (h hm)⟩

/-- Blank characters are no quotes, and no backslashes (`Unquoted`). -/
theorem unquoted_blank (h : isBlankLine line = true) : Unquoted line := by
  rw [isBlankLine, List.all_eq_true] at h
  refine ⟨fun hm => ?_, fun hm => ?_⟩
  · cases h _ hm
  · cases h _ hm

/-- Lines without quotes are a text without quotes, each of them ended by a line feed (`Unquoted`).
-/
theorem unquoted_ended (h : ∀ line ∈ ls, Unquoted line) : Unquoted (ended ls) := by
  induction ls with
  | nil => exact unquoted_nil
  | cons line ls ih =>
    have hnewline : Unquoted ['\n'] := ⟨by decide, by decide⟩
    rw [Text.ended_cons]
    exact (h line List.mem_cons_self).append
      (hnewline.append (ih fun l hl => h l (List.mem_cons_of_mem _ hl)))

/-! ## Scanning -/

/-- Inside a long string the scan stays where it is, up to a quote or a backslash (`Unquoted`). -/
theorem run_unquoted (h : Unquoted line) (d : Nat) :
    ScanState.run ⟨d, .long '"' 0⟩ line = ⟨d, .long '"' 0⟩ := by
  induction line with
  | nil => rfl
  | cons c line ih =>
    obtain ⟨hquote, hbackslash⟩ := h
    rw [List.mem_cons, not_or] at hquote hbackslash
    have hnext : ScanState.next ⟨d, .long '"' 0⟩ c = ⟨d, .long '"' 0⟩ := by
      simp [ScanState.next, Ne.symm hquote.1, Ne.symm hbackslash.1]
    rw [ScanState.run_cons, hnext, ih ⟨hquote.2, hbackslash.2⟩]

/-- The scan starts anew behind the quotes at the end of a long string, if it was opened outside
brackets. -/
theorem run_close (h : Unquoted line) :
    ScanState.run ⟨0, .long '"' 0⟩ (line ++ longQuotes) = .start := by
  rw [ScanState.run_append, run_unquoted h]
  rfl

/-- Quotes at the end of a line are no backslash, so they do not continue the line. -/
theorem getLast?_quotes (line : List Char) : (line ++ longQuotes).getLast? ≠ some '\\' := by
  rw [List.getLast?_append]
  exact fun h => by cases h

/-! ## The lines of a string -/

/-- The lines of a long string behind the one on which it is opened. The quotes that close it are at
the end of the last one; before them there are neither quotes nor backslashes (`Unquoted`). -/
inductive Closes : List (List Char) → Prop
  | last {line : List Char} (h : Unquoted line) : Closes [line ++ longQuotes]
  | cons {line : List Char} {ls : List (List Char)} (h : Unquoted line) (hls : Closes ls) :
    Closes (line :: ls)

/-- The lines of a text that opens a long string and of the string: the first one, behind the text
`front`, and the others. The string may end on its first line. -/
inductive StringLines (front : List Char) : List Char → List (List Char) → Prop
  | single {line : List Char} (h : Unquoted line) :
    StringLines front (front ++ (line ++ longQuotes)) []
  | cons {line : List Char} {ls : List (List Char)} (h : Unquoted line) (hls : Closes ls) :
    StringLines front (front ++ line) ls

/-- The lines of a text and the quotes behind it close a string (`Closes`), by induction over its
lines. -/
theorem closes_splitOn (h : Unquoted s) : Closes ((s ++ longQuotes).splitOn '\n') := by
  induction s with
  | nil => exact .last unquoted_nil
  | cons c s ih =>
    have hc : Unquoted [c] := ⟨fun hm => h.1 (List.mem_cons.2 (.inl (List.mem_singleton.1 hm))),
      fun hm => h.2 (List.mem_cons.2 (.inl (List.mem_singleton.1 hm)))⟩
    have hpieces := ih ⟨fun hm => h.1 (List.mem_cons_of_mem c hm),
      fun hm => h.2 (List.mem_cons_of_mem c hm)⟩
    rw [List.cons_append, List.splitOn_cons_eq_if_modifyHead]
    generalize (s ++ longQuotes).splitOn '\n' = pieces at hpieces ⊢
    split
    · exact .cons unquoted_nil hpieces
    · cases hpieces with
      | last hline => exact .last (hc.append hline)
      | cons hline hls => exact .cons (hc.append hline) hls

/-- Lines without quotes and, at the end of the last one, quotes close a string (`Closes`). -/
theorem closes_concat (h : ∀ line ∈ ls, Unquoted line) (hline : Unquoted line) :
    Closes (ls ++ [line ++ longQuotes]) := by
  induction ls with
  | nil => exact .last hline
  | cons first ls ih =>
    exact .cons (h first List.mem_cons_self) (ih fun l hl => h l (List.mem_cons_of_mem _ hl))

/-- Behind a text that opens a string, the pieces of its text are the lines of the string
(`StringLines`). -/
theorem exists_stringLines (h : Unquoted s) (front : List Char) :
    ∃ line more, (s ++ longQuotes).splitOn '\n' = line :: more
      ∧ StringLines front (front ++ line) more := by
  have hpieces := closes_splitOn h
  generalize (s ++ longQuotes).splitOn '\n' = pieces at hpieces ⊢
  cases hpieces with
  | last hline => exact ⟨_, _, rfl, .single hline⟩
  | cons hline hls => exact ⟨_, _, rfl, .cons hline hls⟩

/-- No logical line starts on the lines of a string behind the first one, and one starts behind them
(`Closes`). -/
theorem Closes.markLines_eq (h : Closes ls) (rest : List (List Char)) :
    markLines ⟨0, .long '"' 0⟩ false (ls ++ rest)
      = ls.map (⟨false, ·⟩) ++ markLines .start true rest := by
  induction h with
  | @last line hline =>
    have hends : EndsLine ⟨0, .long '"' 0⟩ (line ++ longQuotes) :=
      ⟨by rw [run_close hline]; rfl, getLast?_quotes line⟩
    have hquoted : Quoted ⟨0, .long '"' 0⟩ := (rfl : isQuote '"' = true)
    exact markLines_of_endsLine hquoted hends false rest
  | @cons line ls hline hls ih =>
    have hinside :
        (ScanState.isTop ⟨0, .long '"' 0⟩ '\n' && line.getLast? != some '\\') = false := rfl
    have hnext : ScanState.next ⟨0, .long '"' 0⟩ '\n' = ⟨0, .long '"' 0⟩ := rfl
    rw [List.cons_append, markLines, run_unquoted hline, hinside, hnext, ih]
    rfl

/-- **The lines of a string are one logical line**, which starts on the line that opens it
(`hopen`). -/
theorem StringLines.markLines_eq (hopen : ScanState.start.run front = ⟨0, .long '"' 0⟩)
    (h : StringLines front first more) (rest : List (List Char)) :
    markLines .start true (first :: (more ++ rest))
      = ⟨true, first⟩ :: (more.map (⟨false, ·⟩) ++ markLines .start true rest) := by
  cases h with
  | @single line hline =>
    have hends : EndsLine .start (front ++ (line ++ longQuotes)) := by
      refine ⟨?_, ?_⟩
      · rw [ScanState.run_append, hopen, run_close hline]
        rfl
      · rw [← List.append_assoc]
        exact getLast?_quotes _
    exact markLines_of_endsLine quoted_start hends true rest
  | @cons line ls hline hls =>
    have hinside :
        (ScanState.isTop ⟨0, .long '"' 0⟩ '\n' && (front ++ line).getLast? != some '\\') = false :=
      rfl
    have hnext : ScanState.next ⟨0, .long '"' 0⟩ '\n' = ⟨0, .long '"' 0⟩ := rfl
    rw [markLines, ScanState.run_append, hopen, run_unquoted hline, hinside, hnext,
      hls.markLines_eq]

/-- Behind the lines of a string the scan starts anew, as its last line closes it (`Closes`). -/
theorem Closes.run_ended (h : Closes ls) : ScanState.run ⟨0, .long '"' 0⟩ (ended ls) = .start := by
  induction h with
  | @last line hline =>
    have hended : ended [line ++ longQuotes] = line ++ longQuotes ++ ['\n'] := by simp [ended]
    rw [hended, ScanState.run_append, run_close hline]
    rfl
  | @cons line ls hline hls ih =>
    rw [Text.ended_cons, ScanState.run_append, run_unquoted hline]
    exact ih

/-- Behind a text that opens a string (`hopen`), and the lines of the string, the scan starts anew.
-/
theorem StringLines.run_ended (hopen : ScanState.start.run front = ⟨0, .long '"' 0⟩)
    (h : StringLines front first more) : ScanState.start.run (ended (first :: more)) = .start := by
  cases h with
  | @single line hline =>
    have hended : ended [front ++ (line ++ longQuotes)] = front ++ ended [line ++ longQuotes] := by
      simp [ended]
    rw [hended, ScanState.run_append, hopen, (Closes.last hline).run_ended]
  | @cons line ls hline hls =>
    rw [Text.ended_cons, List.append_assoc, ← Text.ended_cons, ScanState.run_append, hopen,
      (Closes.cons hline hls).run_ended]

/-! ## Lines that are changed -/

/-- A change `g` of the lines of a string that adds no characters and keeps the quotes at their end
leaves them lines of a string. -/
theorem Closes.map {g : List Char → List Char} (h : Closes ls) (hsub : ∀ line, g line ⊆ line)
    (hquotes : ∀ line, line ++ longQuotes ∈ ls →
      ∃ line' ⊆ line, g (line ++ longQuotes) = line' ++ longQuotes) :
    Closes (ls.map g) := by
  induction h with
  | @last line hline =>
    obtain ⟨line', hsub', hg⟩ := hquotes line List.mem_cons_self
    rw [List.map_singleton, hg]
    exact .last (hline.subset hsub')
  | @cons line ls hline hls ih =>
    exact .cons (hline.subset (hsub line)) (ih fun l hl => hquotes l (List.mem_cons_of_mem _ hl))

/-- A change `g` of the lines may change the first of them as well, if what comes out goes on behind
a text `front'`. -/
theorem StringLines.map {g : List Char → List Char} {front' : List Char}
    (h : StringLines front first more)
    (hfront : ∀ line, ∃ line' ⊆ line, g (front ++ line) = front' ++ line')
    (hsingle : ∀ line, g (front ++ (line ++ longQuotes)) = front' ++ (line ++ longQuotes))
    (hsub : ∀ line, g line ⊆ line)
    (hquotes : ∀ line, line ++ longQuotes ∈ more →
      ∃ line' ⊆ line, g (line ++ longQuotes) = line' ++ longQuotes) :
    StringLines front' (g first) (more.map g) := by
  cases h with
  | @single line hline =>
    rw [hsingle]
    exact .single hline
  | @cons line ls hline hls =>
    obtain ⟨line', hsub', hg⟩ := hfront line
    rw [hg]
    exact .cons (hline.subset hsub') (hls.map hsub hquotes)

/-! ## Statements -/

/-- A logical line in column zero starts a statement, and ends the open one. -/
theorem statementsFrom_flush (h : isBlankOrComment line = false)
    (hwidth : Text.indentWidth line = 0) (current : Option (List Char)) (rest : List Line) :
    statementsFrom current (⟨true, line⟩ :: rest)
      = current.toList ++ statementsFrom (some line) rest := by
  simp [statementsFrom, h, hwidth]

/-- A deeper logical line belongs to the open statement, if there is one, and is lost otherwise. -/
theorem statementsFrom_deeper (h : isBlankOrComment line = false)
    (hwidth : 0 < Text.indentWidth line) (current : Option (List Char)) (rest : List Line) :
    statementsFrom current (⟨true, line⟩ :: rest)
      = statementsFrom (current.map (· ++ '\n' :: line)) rest := by
  simp [statementsFrom, h, hwidth.ne']

/-- Lines on which no logical line starts belong to the open statement, if there is one, however
they are indented. -/
theorem statementsFrom_within (current : Option (List Char)) (ls : List (List Char))
    (rest : List Line) :
    statementsFrom current (ls.map (⟨false, ·⟩) ++ rest)
      = statementsFrom (current.map (· ++ ls.flatMap ('\n' :: ·))) rest := by
  induction ls generalizing current with
  | nil => simp
  | cons line ls ih =>
    rw [List.map_cons, List.cons_append, statementsFrom]
    simp only [Bool.false_and, Bool.false_eq_true, if_false]
    rw [ih, Option.map_map]
    congr 2
    funext s
    exact List.append_assoc ..

/-- Line feeds in front of lines and one behind them are line feeds behind lines and one in front of
them. -/
theorem flatMap_newline (ls : List (List Char)) :
    ls.flatMap ('\n' :: ·) ++ ['\n'] = '\n' :: ended ls := by
  induction ls with
  | nil => rfl
  | cons line ls ih =>
    rw [List.flatMap_cons, List.append_assoc, ih, Text.ended_cons]
    rfl

end Source

/-! ## Reading -/

namespace Literal

open Source (Unquoted longQuotes)

variable {s : List Char}

/-- The characters of a long string are read up to its quotes, as they stand there (`Unquoted`). -/
theorem readContent_unquoted (h : Unquoted s) (rest : List Char) :
    readContent ⟨'"', false, true⟩ .plain (s ++ (longQuotes ++ rest)) = .ok (s, rest) := by
  induction s with
  | nil => rfl
  | cons c s ih =>
    obtain ⟨hquote, hbackslash⟩ := h
    rw [List.mem_cons, not_or] at hquote hbackslash
    have hstep : readContent ⟨'"', false, true⟩ .plain (c :: (s ++ (longQuotes ++ rest)))
        = prepend [c] (readContent ⟨'"', false, true⟩ .plain (s ++ (longQuotes ++ rest))) := by
      refine (Takes.char (fun hcloses => hquote.1 hcloses.1.symm) (Ne.symm hbackslash.1)
        fun hlong => ?_).readContent_eq
      cases hlong
    rw [List.cons_append, hstep, ih ⟨hquote.2, hbackslash.2⟩]
    rfl

/-- **A long string reads as the text between its quotes**, which may go over several lines
(`Unquoted`). -/
theorem read_long (h : Unquoted s) :
    read (longQuotes ++ s ++ longQuotes) = .ok (string (String.ofList s)) := by
  have hcontent := readContent_unquoted h []
  rw [List.append_nil] at hcontent
  have hstring : readString false '"' (['"', '"'] ++ s ++ longQuotes) = .ok (s, []) := hcontent
  exact read_of_readString rfl hstring

end Literal

end WorkflowTemplates
