import WorkflowTemplates.Proofs.Source.Scan
import WorkflowTemplates.Proofs.Text.Lines
import WorkflowTemplates.Proofs.Text.Margin
import WorkflowTemplates.Proofs.Text.Runs
import WorkflowTemplates.Source.Body

/-!
# Where logical lines start

A line that ends outside strings and brackets, and not with a backslash, ends a logical line
(`EndsLine`), and behind it the scan starts anew (`markLines_of_endsLine`). Blank lines and comments
do so, and a carriage return at the end of a line makes no difference (`EndsLine.of_dropReturn`).
-/

namespace WorkflowTemplates.Source

open Text (dropReturn ended isBlank isBlankLine trim trimEnd trimStart)

variable {s : ScanState} {line : List Char} {ls : List (List Char)}

/-! ## Strings are opened by quotes -/

/-- The strings of a state are opened by quotes, that is, by one of the two characters of `isQuote`.
Every state that a scan reaches is so. -/
def Quoted (s : ScanState) : Prop :=
  match s.mode with
  | .code | .comment => True
  | .opening quote | .openingTwo quote | .short quote | .shortEscape quote | .long quote _
  | .longEscape quote => isQuote quote = true

/-- At the start no string is open, so there is nothing to ask for (`Quoted`). -/
theorem quoted_start : Quoted .start := trivial

/-- Only a quote opens a string in code (`Quoted`). -/
theorem quoted_nextInCode (d : Nat) (c : Char) : Quoted (ScanState.nextInCode d c) := by
  unfold ScanState.nextInCode
  split
  · trivial
  split
  · next hquote => exact hquote
  split
  · trivial
  split <;> trivial

/-- In a short string its quote stays the same, until the string ends (`Quoted`). -/
theorem quoted_nextInShort {quote : Char} (h : isQuote quote = true) (d : Nat) (c : Char) :
    Quoted ⟨d, ScanState.nextInShort quote c⟩ := by
  unfold ScanState.nextInShort
  split
  · trivial
  split
  · exact h
  split
  · trivial
  · exact h

/-- Behind any character strings are opened by quotes, by the cases of `ScanState.next`. -/
theorem Quoted.next (h : Quoted s) (c : Char) : Quoted (s.next c) := by
  obtain ⟨depth, mode⟩ := s
  cases mode with
  | code => exact quoted_nextInCode depth c
  | comment =>
    unfold ScanState.next
    dsimp only
    split <;> trivial
  | opening quote =>
    unfold ScanState.next
    dsimp only
    split
    · exact h
    · exact quoted_nextInShort h depth c
  | openingTwo quote =>
    unfold ScanState.next
    dsimp only
    split
    · exact h
    · exact quoted_nextInCode depth c
  | short quote => exact quoted_nextInShort h depth c
  | shortEscape quote | longEscape quote => exact h
  | long quote quotes =>
    unfold ScanState.next
    dsimp only
    split
    · split
      · trivial
      · exact h
    split <;> exact h

/-- Along a scan strings are opened by quotes, by induction over the text (`Quoted`). -/
theorem Quoted.run (h : Quoted s) (text : List Char) : Quoted (s.run text) := by
  induction text generalizing s with
  | nil => exact h
  | cons c text ih => exact ih (h.next c)

/-- Behind a plain character that is code outside brackets (`isTop`) the scan starts anew. -/
theorem next_of_isTop {c : Char} (hs : Quoted s) (hc : ScanState.isPlain c = true)
    (h : s.isTop c = true) : s.next c = .start := by
  obtain ⟨depth, mode⟩ := s
  rw [ScanState.isTop, Bool.and_eq_true, beq_iff_eq] at h
  obtain ⟨rfl, hcode⟩ := h
  have hne {quote : Char} (hquote : isQuote quote = true) : c ≠ quote := by
    rintro rfl
    rw [ScanState.isQuote_of_isPlain hc] at hquote
    cases hquote
  unfold ScanState.next
  cases mode with
  | code => exact ScanState.nextInCode_plain hc 0
  | comment => exact if_pos (beq_iff_eq.1 hcode)
  | opening quote =>
    cases beq_iff_eq.1 hcode
    dsimp only
    rw [if_neg (hne hs), ScanState.nextInShort, if_neg (hne hs)]
    rfl
  | openingTwo quote => exact (if_neg (hne hs)).trans (ScanState.nextInCode_plain hc 0)
  | short quote =>
    cases beq_iff_eq.1 hcode
    dsimp only
    rw [ScanState.nextInShort, if_neg (hne hs)]
    rfl
  | shortEscape | long | longEscape => cases hcode

/-! ## Line ends -/

/-- Plain characters leave the scan where it started: they open nothing. -/
theorem run_plain {w : List Char} (h : ∀ c ∈ w, ScanState.isPlain c = true) :
    ScanState.start.run w = .start := by
  induction w with
  | nil => rfl
  | cons c w ih =>
    have hnext : ScanState.start.next c = .start :=
      ScanState.nextInCode_plain (h c List.mem_cons_self) 0
    rw [ScanState.run_cons, hnext, ih fun b hb => h b (List.mem_cons_of_mem _ hb)]

/-- Blanks are plain: they neither open nor close anything. -/
theorem isPlain_of_isBlank {c : Char} (h : isBlank c = true) : ScanState.isPlain c = true := by
  have hplain : ∀ c ∈ Text.blanks, ScanState.isPlain c = true :=
    Text.forall_mem_of_all (by decide +kernel)
  exact hplain c (Text.mem_blanks h)

/-- Blank characters leave the scan where it started, line feeds included. -/
theorem run_blank (h : isBlankLine line = true) : ScanState.start.run line = .start :=
  run_plain fun c hc => isPlain_of_isBlank (List.all_eq_true.1 h c hc)

/-- In a comment the scan stays up to the end of the line, with the brackets around the comment
open. -/
theorem run_comment (hline : '\n' ∉ line) (d : Nat) :
    ScanState.run ⟨d, .comment⟩ line = ⟨d, .comment⟩ := by
  induction line with
  | nil => rfl
  | cons c line ih =>
    rw [List.mem_cons, not_or] at hline
    have hnext : ScanState.next ⟨d, .comment⟩ c = ⟨d, .comment⟩ := if_neg (Ne.symm hline.1)
    rw [ScanState.run_cons, hnext, ih hline.2]

/-- A blank line is blank or a comment, which `isBlankOrComment` asks in one. -/
theorem isBlankOrComment_of_blank (h : isBlankLine line = true) : isBlankOrComment line = true := by
  rw [isBlankOrComment, trim, (Text.trimStart_eq_nil_iff line).2 h]
  rfl

/-- A line that is blank or holds only a comment starts with blanks, and then ends or goes on with a
number sign. -/
theorem trimStart_of_isBlankOrComment (h : isBlankOrComment line = true) :
    trimStart line = [] ∨ ∃ comment, trimStart line = '#' :: comment := by
  cases hstart : trimStart line with
  | nil => exact .inl rfl
  | cons c rest =>
    refine .inr ⟨rest, ?_⟩
    have hc : isBlank c = false := by
      have hhead := List.head?_dropWhile_not isBlank line
      rw [← trimStart, hstart] at hhead
      simpa using hhead
    obtain ⟨w, hw, hrest⟩ := Text.exists_eq_trimEnd_append (c :: rest)
    rw [isBlankOrComment, trim, hstart] at h
    cases htrim : trimEnd (c :: rest) with
    | nil =>
      rw [htrim, List.nil_append] at hrest
      rw [← hrest, isBlankLine, List.all_cons, hc, Bool.false_and] at hw
      cases hw
    | cons d trimmed =>
      rw [htrim, List.cons_append, List.cons.injEq] at hrest
      rw [htrim] at h
      have hd : d = '#' := by simpa using h
      rw [hrest.1, hd]

/-- A line that is blank or holds only a comment ends where a logical line may start (`isTop`). -/
theorem isTop_of_isBlankOrComment (h : isBlankOrComment line = true) (hline : '\n' ∉ line) :
    (ScanState.start.run line).isTop '\n' = true := by
  have hblank : isBlankLine (line.takeWhile isBlank) = true := List.all_takeWhile
  have hsplit : line.takeWhile isBlank ++ trimStart line = line := List.takeWhile_append_dropWhile
  rw [← hsplit, ScanState.run_append, run_blank hblank]
  rcases trimStart_of_isBlankOrComment h with hend | ⟨comment, hcomment⟩
  · rw [hend]
    rfl
  · have hrest : '\n' ∉ comment := fun hm =>
      hline (hsplit ▸ List.mem_append_right _ (hcomment ▸ List.mem_cons_of_mem _ hm))
    have hnext : ScanState.start.next '#' = ⟨0, .comment⟩ := rfl
    rw [hcomment, ScanState.run_cons, hnext, run_comment hrest]
    rfl

/-- A carriage return changes nothing about the line end behind it, as it is plain (`Quoted`). -/
theorem isTop_next_return (hs : Quoted s) (h : s.isTop '\n' = true) :
    (s.next '\r').isTop '\n' = true := by
  obtain ⟨depth, mode⟩ := s
  rw [ScanState.isTop, Bool.and_eq_true, beq_iff_eq] at h
  obtain ⟨rfl, hcode⟩ := h
  have hne {quote : Char} (hquote : isQuote quote = true) : '\r' ≠ quote := by
    rintro rfl
    cases hquote
  unfold ScanState.next
  cases mode with
  | code | comment => rfl
  | opening quote =>
    dsimp only
    rw [if_neg (hne hs), ScanState.nextInShort, if_neg (hne hs)]
    rfl
  | openingTwo quote =>
    dsimp only
    rw [if_neg (hne hs)]
    rfl
  | short quote =>
    dsimp only
    rw [ScanState.nextInShort, if_neg (hne hs)]
    rfl
  | shortEscape | long | longEscape => cases hcode

/-! ## Logical lines -/

/-- A line that is scanned from a state on ends outside strings and brackets, and not with a
backslash: the next line starts a logical one. These are the logical lines of the Python grammar. -/
def EndsLine (s : ScanState) (line : List Char) : Prop :=
  (s.run line).isTop '\n' = true ∧ line.getLast? ≠ some '\\'

/-- Behind a blank line a logical line starts (`EndsLine`). -/
theorem endsLine_blank (h : isBlankLine line = true) : EndsLine .start line := by
  refine ⟨by rw [run_blank h]; rfl, fun hlast => ?_⟩
  have hblank := List.all_eq_true.1 h _ (List.mem_of_getLast? hlast)
  exact Bool.false_ne_true hblank

/-- With its carriage return a line ends a logical one too (`EndsLine`), since the reader drops it.
-/
theorem EndsLine.of_dropReturn (hs : Quoted s) (h : EndsLine s (dropReturn line)) :
    EndsLine s line := by
  unfold dropReturn at h
  split at h
  · next hreturn =>
    obtain ⟨init, rfl⟩ := List.getLast?_eq_some_iff.1 hreturn
    rw [List.dropLast_concat] at h
    refine ⟨?_, ?_⟩
    · rw [ScanState.run_append]
      exact isTop_next_return (hs.run init) h.1
    · rw [hreturn]
      decide
  · exact h

/-- Behind lines, what ends a logical line is the last one, scanned from the state in which the
others end (`EndsLine`). -/
theorem EndsLine.of_append {text : List Char} (h : EndsLine s (text ++ line)) :
    EndsLine (s.run text) line := by
  refine ⟨ScanState.run_append s text line ▸ h.1, fun hlast => h.2 ?_⟩
  rw [List.getLast?_append, hlast]
  rfl

/-- Behind a line that ends a logical one (`EndsLine`) the next one starts anew, and the scan with
it. -/
theorem markLines_of_endsLine (hs : Quoted s) (h : EndsLine s line) (starts : Bool)
    (more : List (List Char)) :
    markLines s starts (line :: more) = ⟨starts, line⟩ :: markLines .start true more := by
  rw [markLines, next_of_isTop (hs.run line) rfl h.1, h.1, bne_iff_ne.2 h.2, Bool.and_self]

/-- Lines are marked from the front, and those behind them from the state in which they end. Whether
the first of those starts a logical line (`starts'`) is decided before them. -/
theorem exists_markLines_append (s : ScanState) (starts : Bool) (ls : List (List Char)) :
    ∃ starts', ∀ more, markLines s starts (ls ++ more)
      = markLines s starts ls ++ markLines (s.run (ended ls)) starts' more := by
  induction ls generalizing s starts with
  | nil => exact ⟨starts, fun _ => rfl⟩
  | cons line ls ih =>
    obtain ⟨starts', hmarks⟩ :=
      ih ((s.run line).next '\n') ((s.run line).isTop '\n' && line.getLast? != some '\\')
    refine ⟨starts', fun more => ?_⟩
    rw [List.cons_append, markLines, markLines, Text.ended_cons, ScanState.run_append,
      ScanState.run_cons, hmarks, List.cons_append]

end WorkflowTemplates.Source
