import Mathlib.Data.List.Basic
import WorkflowTemplates.Proofs.Text.Lines
import WorkflowTemplates.Proofs.Text.Margin

/-!
# Indented texts

A text is indented by putting blanks in front of each of its lines, the blank ones apart
(`indented`). Its lines are then the indented lines (`lines_indented`). Without their margin they
are the same lines as before (`dedent_map_indentLine`), because the margin becomes longer by exactly
what was put in front of every line (`margin_map_indentLine`).
-/

namespace WorkflowTemplates.Text

variable {k : Nat} {line : List Char} {ls : List (List Char)}

/-- A line behind `k` spaces; a blank line stays as it is. -/
def indentLine (k : Nat) (line : List Char) : List Char :=
  if isBlankLine line then line else List.replicate k ' ' ++ line

/-- The text `s` with all of its lines indented by `k` spaces (`indentLine`). -/
def indented (k : Nat) (s : List Char) : List Char :=
  joinLines ((s.splitOn '\n').map (indentLine k))

/-! ## One line -/

theorem indentLine_of_blank (h : isBlankLine line = true) (k : Nat) : indentLine k line = line :=
  if_pos h

theorem indentLine_of_not_blank (h : isBlankLine line = false) (k : Nat) :
    indentLine k line = List.replicate k ' ' ++ line := by
  simp [indentLine, h]

/-- An indented line is blank exactly if the line is. -/
theorem isBlankLine_indentLine (k : Nat) (line : List Char) :
    isBlankLine (indentLine k line) = isBlankLine line := by
  cases h : isBlankLine line with
  | true => rw [indentLine_of_blank h, h]
  | false => rw [indentLine_of_not_blank h, isBlankLine_append, h, Bool.and_false]

/-- The spaces in front of an indented line are trimmed away (`trimStart`). -/
theorem trimStart_indentLine (k : Nat) (line : List Char) :
    trimStart (indentLine k line) = trimStart line := by
  cases h : isBlankLine line with
  | true => rw [indentLine_of_blank h]
  | false =>
    rw [indentLine_of_not_blank h, trimStart, trimStart]
    exact List.dropWhile_append_of_pos fun c hc => isBlank_of_mem_replicate hc

/-- Trimming does not see how deep a line is indented (`trim`). -/
theorem trim_indentLine (k : Nat) (line : List Char) : trim (indentLine k line) = trim line := by
  rw [trim, trimStart_indentLine, trim]

/-- What is put in front of a line that is not blank stands in front of its indentation. -/
theorem leadingBlank_indentLine (h : isBlankLine line = false) (k : Nat) :
    leadingBlank (indentLine k line) = List.replicate k ' ' ++ leadingBlank line := by
  rw [indentLine_of_not_blank h, leadingBlank]
  exact List.takeWhile_append_of_pos fun c hc => isBlank_of_mem_replicate hc

/-- A line that is not blank is indented deeper by the `k` spaces that are put in front of it. -/
theorem indentWidth_indentLine (h : isBlankLine line = false) (k : Nat) :
    indentWidth (indentLine k line) = indentWidth line + k := by
  simp [indentWidth, leadingBlank_indentLine h, Nat.add_comm]

/-- A line that is not blank has a character. -/
theorem ne_nil_of_not_blank (h : isBlankLine line = false) : line ≠ [] := by
  rintro rfl
  cases h

/-- An indented line ends with the same character as the line. -/
theorem getLast?_indentLine (k : Nat) (line : List Char) :
    (indentLine k line).getLast? = line.getLast? := by
  cases h : isBlankLine line with
  | true => rw [indentLine_of_blank h]
  | false =>
    rw [indentLine_of_not_blank h]
    exact List.getLast?_append_of_ne_nil _ (ne_nil_of_not_blank h)

/-- A carriage return is dropped from an indented line as from the line, since it is not in front.
-/
theorem dropReturn_indentLine (k : Nat) (line : List Char) :
    dropReturn (indentLine k line) = indentLine k (dropReturn line) := by
  have hdrop : isBlankLine (dropReturn line) = isBlankLine line := by
    rw [← isBlankLine_trimEnd, trimEnd_dropReturn, isBlankLine_trimEnd]
  cases h : isBlankLine line with
  | true => rw [indentLine_of_blank h, indentLine_of_blank (hdrop.trans h)]
  | false =>
    rw [indentLine_of_not_blank (hdrop.trans h), dropReturn, getLast?_indentLine, dropReturn,
      indentLine_of_not_blank h]
    split
    · exact List.dropLast_append_of_ne_nil (ne_nil_of_not_blank h)
    · rfl

/-! ## The lines of an indented text -/

/-- Indenting a line adds no line feed. -/
theorem newline_notMem_indentLine (h : '\n' ∉ line) (k : Nat) : '\n' ∉ indentLine k line := by
  unfold indentLine
  split
  · exact h
  · intro hm
    rcases List.mem_append.1 hm with hm | hm
    · obtain ⟨-, heq⟩ := List.mem_replicate.1 hm
      cases heq
    · exact h hm

/-- The lines among indented pieces (`endedLines`) are the indented lines among the pieces. -/
theorem endedLines_map_indentLine (k : Nat) (pieces : List (List Char)) :
    endedLines (pieces.map (indentLine k)) = (endedLines pieces).map (indentLine k) := by
  induction pieces using endedLines.induct with
  | case1 => rfl
  | case2 last hlast =>
    obtain rfl := List.isEmpty_iff.1 hlast
    rfl
  | case3 last hlast =>
    have hne : ¬(indentLine k last).isEmpty = true := by
      unfold indentLine
      split
      · exact hlast
      · simp_all
    rw [List.map_singleton, endedLines, if_neg hne, endedLines, if_neg hlast, List.map_singleton]
  | case4 piece rest hrest ih =>
    obtain ⟨next, rest, rfl⟩ := List.exists_cons_of_ne_nil hrest
    have hmap : endedLines ((piece :: next :: rest).map (indentLine k))
        = dropReturn (indentLine k piece) :: endedLines ((next :: rest).map (indentLine k)) := rfl
    have hended : endedLines (piece :: next :: rest)
        = dropReturn piece :: endedLines (next :: rest) := rfl
    rw [hmap, ih, dropReturn_indentLine, hended, List.map_cons]

/-- **The lines of an indented text (`indented`) are the indented lines of the text.** -/
theorem lines_indented (k : Nat) (s : List Char) :
    lines (indented k s) = (lines s).map (indentLine k) := by
  have hfree : ∀ piece ∈ (s.splitOn '\n').map (indentLine k), '\n' ∉ piece := by
    intro piece hpiece
    obtain ⟨p, hp, rfl⟩ := List.mem_map.1 hpiece
    exact newline_notMem_indentLine (notMem_of_mem_splitOn hp) k
  have hne : (s.splitOn '\n').map (indentLine k) ≠ [] := by simp
  rw [lines, indented, joinLines, List.splitOn_intercalate '\n' hfree hne,
    endedLines_map_indentLine, lines]

/-! ## The margin of indented lines -/

/-- What `w` puts in front of several texts stays in front of what they have in common. -/
theorem foldl_commonPrefix_append (w first : List Char) (rest : List (List Char)) :
    (rest.map (w ++ ·)).foldl commonPrefix (w ++ first) = w ++ rest.foldl commonPrefix first := by
  induction rest generalizing first with
  | nil => rfl
  | cons s rest ih => rw [List.map_cons, List.foldl_cons, commonPrefix_append, ih, List.foldl_cons]

/-- The indentations of indented lines are those of the lines behind `k` spaces; blank lines have
none on either side. -/
theorem indentations_map_indentLine (k : Nat) (ls : List (List Char)) :
    ((ls.map (indentLine k)).filter (!isBlankLine ·)).map leadingBlank
      = ((ls.filter (!isBlankLine ·)).map leadingBlank).map (List.replicate k ' ' ++ ·) := by
  induction ls with
  | nil => rfl
  | cons line ls ih =>
    cases h : isBlankLine line with
    | true => simp [isBlankLine_indentLine, h, ih]
    | false => simp [isBlankLine_indentLine, h, ih, leadingBlank_indentLine h]

/-- The `margin` of indented lines is what was put in front of them and their margin, if any of them
is not blank. -/
theorem margin_map_indentLine (hline : line ∈ ls) (h : isBlankLine line = false) (k : Nat) :
    margin (ls.map (indentLine k)) = List.replicate k ' ' ++ margin ls := by
  have hmem : leadingBlank line ∈ (ls.filter (!isBlankLine ·)).map leadingBlank :=
    List.mem_map_of_mem (List.mem_filter.2 ⟨hline, by simp [h]⟩)
  obtain ⟨first, rest, hcons⟩ := List.exists_cons_of_ne_nil (List.ne_nil_of_mem hmem)
  rw [margin, indentations_map_indentLine, margin, hcons, List.map_cons]
  exact foldl_commonPrefix_append _ first rest

/-- An indented line without the longer margin is the line without the shorter one
(`withoutMargin`). -/
theorem withoutMargin_indentLine (k : Nat) (w line : List Char) :
    withoutMargin (List.replicate k ' ' ++ w) (indentLine k line) = withoutMargin w line := by
  cases h : isBlankLine line with
  | true => simp [withoutMargin, isBlankLine_indentLine, h]
  | false =>
    have hdrop : (List.replicate k ' ' ++ line).drop (k + w.length) = line.drop w.length := by
      rw [← List.drop_drop, List.drop_left' List.length_replicate]
    rw [withoutMargin, isBlankLine_indentLine, h, withoutMargin, h, indentLine_of_not_blank h,
      List.length_append, List.length_replicate, hdrop]

/-- **Indented lines without their margin are the lines without their margin**, blank or not:
`dedent` does not see how deep a text is indented. -/
theorem dedent_map_indentLine (k : Nat) (ls : List (List Char)) :
    dedent (ls.map (indentLine k)) = dedent ls := by
  rw [dedent, dedent, List.flatMap_map]
  refine List.flatMap_congr fun line hline => ?_
  cases h : isBlankLine line with
  | true => simp [withoutMargin, isBlankLine_indentLine, h]
  | false => rw [margin_map_indentLine hline h, withoutMargin_indentLine]

end WorkflowTemplates.Text
