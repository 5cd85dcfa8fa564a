import Mathlib.Data.List.Forall2
import WorkflowTemplates.Proofs.Text.Lines
import WorkflowTemplates.Proofs.Text.Margin

/-!
# Lines without their margin

The margin of lines is the longest run of blanks that all of them but the blank ones start with
(`IsMargin`), and `margin` finds it (`isMargin_iff`). Without it a blank line is empty, and any
other one ends with a character that is not blank (`Stripped`). Such lines have no margin left
(`IsMargin.map_withoutMargin`), so removing the margin of lines again changes nothing
(`dedent_lines`).
-/

namespace WorkflowTemplates.Text

variable {w line shown : List Char} {ls : List (List Char)}

/-! ## The longest shared indentation -/

/-- All lines of `ls` but the blank ones start with the blanks `w`. -/
def Indents (w : List Char) (ls : List (List Char)) : Prop :=
  ∀ line ∈ ls, isBlankLine line = false → w <+: leadingBlank line

/-- The blanks `w` are the longest that all lines but the blank ones start with (`Indents`); lines
that are all blank have no margin. -/
structure IsMargin (w : List Char) (ls : List (List Char)) : Prop where
  blank : isBlankLine w = true
  indents : Indents w ls
  longest : (∃ line ∈ ls, isBlankLine line = false) → ∀ v, Indents v ls → v <+: w
  eq_nil : (∀ line ∈ ls, isBlankLine line = true) → w = []

/-- What all lines but the blank ones start with is blank itself, if there is such a line
(`Indents`). -/
theorem Indents.isBlankLine (h : Indents w ls) (hline : line ∈ ls)
    (hblank : Text.isBlankLine line = false) : Text.isBlankLine w = true := by
  obtain ⟨t, ht⟩ := h line hline hblank
  have hleading : Text.isBlankLine (leadingBlank line) = true := List.all_takeWhile
  rw [← ht, isBlankLine_append, Bool.and_eq_true] at hleading
  exact hleading.1

/-- Lines that are all blank have the empty `margin`. -/
theorem margin_of_blank (h : ∀ line ∈ ls, isBlankLine line = true) : margin ls = [] := by
  have hfilter : ls.filter (!isBlankLine ·) = [] := by
    rw [List.filter_eq_nil_iff]
    intro line hline
    simp [h line hline]
  rw [margin, hfilter]
  rfl

/-- There is a line that is not blank, or all lines are blank: the two cases of `IsMargin`. -/
theorem exists_not_blank_or (ls : List (List Char)) :
    (∃ line ∈ ls, isBlankLine line = false) ∨ ∀ line ∈ ls, isBlankLine line = true := by
  by_cases h : ∃ line ∈ ls, isBlankLine line = false
  · exact .inl h
  · refine .inr fun line hline => Bool.of_not_eq_false fun hblank => h ⟨line, hline, hblank⟩

/-- What `margin` computes is the margin of the lines in the sense of `IsMargin`. -/
theorem isMargin_margin (ls : List (List Char)) : IsMargin (margin ls) ls := by
  obtain ⟨line, hline, hblank⟩ | hall := exists_not_blank_or ls
  · have hindents : Indents (margin ls) ls :=
      (prefix_margin_iff hline hblank).1 List.prefix_rfl
    exact {
      blank := hindents.isBlankLine hline hblank
      indents := hindents
      longest := fun _ v hv => (prefix_margin_iff hline hblank).2 hv
      eq_nil := fun h => absurd (hblank.symm.trans (h line hline)) Bool.false_ne_true }
  · rw [margin_of_blank hall]
    exact {
      blank := rfl
      indents := fun _ _ _ => List.nil_prefix
      longest := by
        rintro ⟨line, hline, hblank⟩
        exact absurd (hblank.symm.trans (hall line hline)) Bool.false_ne_true
      eq_nil := fun _ => rfl }

/-- **Lines have exactly one margin, the one that `margin` computes.** -/
theorem isMargin_iff : IsMargin w ls ↔ w = margin ls := by
  constructor
  · intro h
    have hmargin := isMargin_margin ls
    obtain hsome | hall := exists_not_blank_or ls
    · have hle := hmargin.longest hsome w h.indents
      have hge := h.longest hsome _ hmargin.indents
      exact hle.eq_of_length_le hge.length_le
    · rw [h.eq_nil hall, hmargin.eq_nil hall]
  · rintro rfl
    exact isMargin_margin ls

/-! ## One line -/

/-- What a line becomes without the margin `w`: a blank line becomes empty, any other one is left
from behind the margin, without the blanks at its end. -/
inductive Stripped (w : List Char) : List Char → List Char → Prop
  | blank {line : List Char} (h : isBlankLine line = true) : Stripped w line []
  | text {rest : List Char} (h : isBlankLine (w ++ rest) = false) :
    Stripped w (w ++ rest) (trimEnd rest)

/-- Every line becomes what it is without the margin (`withoutMargin`, `Stripped`). -/
theorem IsMargin.stripped (h : IsMargin w ls) (hline : line ∈ ls) :
    Stripped w line (withoutMargin w line) := by
  cases hblank : isBlankLine line with
  | true =>
    rw [withoutMargin, if_pos hblank]
    exact .blank hblank
  | false =>
    obtain ⟨rest, rfl⟩ := (prefix_leadingBlank_iff h.blank).1 (h.indents line hline hblank)
    rw [withoutMargin, hblank, if_neg Bool.false_ne_true, List.drop_left]
    exact .text hblank

/-- A line that is not blank keeps what it is indented by behind the margin `w`, and does not become
blank. -/
theorem Stripped.leadingBlank (h : Stripped w line shown) (hw : isBlankLine w = true)
    (hline : isBlankLine line = false) :
    isBlankLine shown = false ∧ Text.leadingBlank line = w ++ Text.leadingBlank shown := by
  cases h with
  | blank h => exact absurd (hline.symm.trans h) Bool.false_ne_true
  | @text rest h =>
    have hrest : isBlankLine rest = false := by
      rwa [isBlankLine_append, hw, Bool.true_and] at h
    refine ⟨(isBlankLine_trimEnd rest).trans hrest, ?_⟩
    rw [leadingBlank_trimEnd hrest]
    exact List.takeWhile_append_of_pos (List.all_eq_true.1 hw)

/-- What is left of a blank line is blank, since it is empty (`Stripped`). -/
theorem Stripped.isBlankLine (h : Stripped w line shown) (hline : Text.isBlankLine line = true) :
    Text.isBlankLine shown = true := by
  cases h with
  | blank h => rfl
  | text h => exact absurd (h.symm.trans hline) Bool.false_ne_true

/-- What is left of a line does not end with blanks, so `trimEnd` changes nothing. -/
theorem trimEnd_withoutMargin (w line : List Char) :
    trimEnd (withoutMargin w line) = withoutMargin w line := by
  unfold withoutMargin
  split
  · rfl
  · exact trimEnd_trimEnd _

/-- Nor does it end with a carriage return, which is a blank. -/
theorem dropReturn_withoutMargin (w line : List Char) :
    dropReturn (withoutMargin w line) = withoutMargin w line := by
  rw [← trimEnd_withoutMargin, dropReturn_trimEnd]

/-- Without the empty margin, a line only loses the blanks at its end. -/
theorem withoutMargin_nil (line : List Char) : withoutMargin [] line = trimEnd line := by
  unfold withoutMargin
  split
  · next h => exact (trimEnd_append h []).symm
  · rfl

/-! ## All lines -/

/-- **Lines without their margin have none left.** Blanks that they all start with could be put
behind the margin `w`, which is the longest. -/
theorem IsMargin.map_withoutMargin (h : IsMargin w ls) :
    IsMargin [] (ls.map (withoutMargin w)) where
  blank := rfl
  indents := fun _ _ _ => List.nil_prefix
  longest := by
    rintro ⟨_, hshown, hblank⟩ v hv
    obtain ⟨line, hline, rfl⟩ := List.mem_map.1 hshown
    have hsome : isBlankLine line = false := by
      refine Bool.of_not_eq_true fun hline' => ?_
      have hnone := (h.stripped hline).isBlankLine hline'
      exact Bool.false_ne_true (hblank.symm.trans hnone)
    have hlonger : Indents (w ++ v) ls := by
      intro l hl hlblank
      obtain ⟨hleft, hleading⟩ := (h.stripped hl).leadingBlank h.blank hlblank
      rw [hleading, List.prefix_append_right_inj]
      exact hv _ (List.mem_map_of_mem hl) hleft
    have hle : w ++ v <+: w ++ [] := by
      rw [List.append_nil]
      exact h.longest ⟨line, hline, hsome⟩ _ hlonger
    exact (List.prefix_append_right_inj w).1 hle
  eq_nil := fun _ => rfl

/-- The text that `dedent` makes is that of the lines without their margin, each ended by a line
feed. -/
theorem dedent_eq_ended (ls : List (List Char)) :
    dedent ls = ended (ls.map (withoutMargin (margin ls))) := by
  rw [dedent, ended, List.flatMap_map]

/-- What is left of lines without line feeds has none either. -/
theorem newline_notMem_withoutMargin (h : ∀ line ∈ ls, '\n' ∉ line) (w : List Char) :
    ∀ line ∈ ls.map (withoutMargin w), '\n' ∉ line :=
  List.forall_mem_map.2 fun line hline hm => h line hline (withoutMargin_subset w line hm)

/-- The lines of the text that `dedent` makes are what is left of the given lines. -/
theorem lines_dedent (h : ∀ line ∈ ls, '\n' ∉ line) :
    lines (dedent ls) = ls.map (withoutMargin (margin ls)) := by
  rw [dedent_eq_ended, lines_ended (newline_notMem_withoutMargin h _), List.map_map]
  exact List.map_congr_left fun line _ => dropReturn_withoutMargin _ line

/-- Removing the margin of what is left of lines changes nothing: their margin is empty, and their
ends are trimmed. -/
theorem dedent_map_withoutMargin (ls : List (List Char)) :
    dedent (ls.map (withoutMargin (margin ls))) = dedent ls := by
  have hmargin : [] = margin (ls.map (withoutMargin (margin ls))) :=
    isMargin_iff.1 (isMargin_margin ls).map_withoutMargin
  rw [dedent_eq_ended, ← hmargin, List.map_map, dedent_eq_ended]
  congr 1
  refine List.map_congr_left fun line _ => ?_
  rw [Function.comp_apply, withoutMargin_nil, trimEnd_withoutMargin]

/-- **Lines lose exactly their common margin.** The text that `dedent` makes of `ls` has as many
lines as were given, each ended by a line feed: a blank line is empty, any other one is left from
behind the longest run of blanks that all of them start with (`IsMargin`), without the blanks at its
end (`Stripped`). These lines have no margin left, and without it they are the same text again. -/
theorem dedent_lines (h : ∀ line ∈ ls, '\n' ∉ line) :
    countBreaks (dedent ls) = ls.length ∧ ended (lines (dedent ls)) = dedent ls
      ∧ IsMargin (margin ls) ls ∧ List.Forall₂ (Stripped (margin ls)) ls (lines (dedent ls))
      ∧ IsMargin [] (lines (dedent ls)) ∧ dedent (lines (dedent ls)) = dedent ls := by
  have hmargin := isMargin_margin ls
  rw [lines_dedent h]
  refine ⟨?_, (dedent_eq_ended ls).symm, hmargin, ?_, hmargin.map_withoutMargin,
    dedent_map_withoutMargin ls⟩
  · rw [dedent_eq_ended, countBreaks_ended (newline_notMem_withoutMargin h _), List.length_map]
  · rw [List.forall₂_map_right_iff, List.forall₂_same]
    exact fun line hline => hmargin.stripped hline

/-- Lines indented by tabs and Unicode spaces of several widths, with a blank line and blanks at
their ends. -/
def mixedLines : List (List Char) :=
  ["\t\u2003 x  ".toList, " \u00a0".toList, "\t\u2003\u3000y\r".toList, "\t\u2003\tz".toList]

/-- The `mixedLines` lose a tab and a wide space, which all but the blank one start with, and no
more. -/
theorem mixedLines_dedented :
    (∀ line ∈ mixedLines, '\n' ∉ line) ∧ dedent mixedLines = " x\n\n\u3000y\n\tz\n".toList
      ∧ IsMargin "\t\u2003".toList mixedLines
      ∧ dedent (lines (dedent mixedLines)) = dedent mixedLines := by
  have hlines : ∀ line ∈ mixedLines, '\n' ∉ line := by decide +kernel
  have hmargin : margin mixedLines = "\t\u2003".toList := by decide +kernel
  obtain ⟨-, -, hfound, -, -, hagain⟩ := dedent_lines hlines
  rw [hmargin] at hfound
  exact ⟨hlines, by decide +kernel, hfound, hagain⟩

end WorkflowTemplates.Text
