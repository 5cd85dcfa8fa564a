import Mathlib.Data.List.DropRight
import WorkflowTemplates.Proofs.Text.Runs
import WorkflowTemplates.Text.Lines

/-!
# Blanks around lines

A text is what is left of it when it is trimmed, and blanks around that. Blank characters at the end
of a line change neither whether it is blank nor, unless it is, how deep it is indented. So lines
without their margin are the same with and without them (`dedent_map_trimEnd`). A carriage return is
such a blank (`trimEnd_dropReturn`).
-/

namespace WorkflowTemplates.Text

variable {a w s : List Char}

/-! ## One line -/

/-- Blanks `w` at the end are trimmed away (`trimEnd`), whatever stands before them. -/
theorem trimEnd_append (hw : isBlankLine w = true) (a : List Char) :
    trimEnd (a ++ w) = trimEnd a := by
  have hreverse : ∀ c ∈ w.reverse, isBlank c = true := fun c hc =>
    List.all_eq_true.1 hw c (List.mem_reverse.1 hc)
  rw [trimEnd, List.reverse_append, List.dropWhile_append_of_pos hreverse, trimEnd]

/-- A text is blanks and what `trimStart` leaves of it behind them. -/
theorem exists_eq_append_trimStart (s : List Char) :
    ∃ w, isBlankLine w = true ∧ s = w ++ trimStart s :=
  ⟨s.takeWhile isBlank, List.all_takeWhile, List.takeWhile_append_dropWhile.symm⟩

/-- A text is what `trimEnd` leaves of it and blanks behind that. -/
theorem exists_eq_trimEnd_append (s : List Char) :
    ∃ w, isBlankLine w = true ∧ s = trimEnd s ++ w := by
  refine ⟨(s.reverse.takeWhile isBlank).reverse, ?_, ?_⟩
  · rw [isBlankLine, List.all_reverse]
    exact List.all_takeWhile
  · rw [trimEnd, ← List.reverse_append, List.takeWhile_append_dropWhile, List.reverse_reverse]

/-- If `s` is part of `t`, what is left of `s` behind a run at its front is part of what is left of
`t`. -/
theorem dropWhile_sublist_dropWhile {s t : List Char} (h : s.Sublist t) (p : Char → Bool) :
    (s.dropWhile p).Sublist (t.dropWhile p) := by
  induction h with
  | slnil => exact .slnil
  | @cons s t c h ih =>
    rw [List.dropWhile_cons]
    split
    · exact ih
    · exact ((List.dropWhile_sublist p).trans h).cons c
  | @cons_cons s t c h ih =>
    rw [List.dropWhile_cons, List.dropWhile_cons]
    split
    · exact ih
    · exact h.cons_cons c

/-- If `s` is part of `t`, what `trim` leaves of `s` is part of what it leaves of `t`. -/
theorem trim_sublist {s t : List Char} (h : s.Sublist t) : (trim s).Sublist (trim t) := by
  have hstart : (trimStart s).reverse.Sublist (trimStart t).reverse :=
    (dropWhile_sublist_dropWhile h isBlank).reverse
  exact (dropWhile_sublist_dropWhile hstart isBlank).reverse

/-- Trimming the start of a text adds no character. -/
theorem trimStart_subset (s : List Char) : trimStart s ⊆ s :=
  (List.dropWhile_sublist _).subset

/-- Trimming the end of a text adds no character. -/
theorem trimEnd_subset (s : List Char) : trimEnd s ⊆ s := by
  obtain ⟨w, -, hs⟩ := exists_eq_trimEnd_append s
  intro c hc
  rw [hs]
  exact List.mem_append_left w hc

/-- What is trimmed in front (`trimStart`) is not trimmed there any further. -/
theorem trimStart_trimStart (s : List Char) : trimStart (trimStart s) = trimStart s :=
  List.dropWhile_idempotent isBlank s

/-- What is trimmed at its end (`trimEnd`) is not trimmed there any further. -/
theorem trimEnd_trimEnd (s : List Char) : trimEnd (trimEnd s) = trimEnd s := by
  rw [trimEnd, trimEnd, List.reverse_reverse, List.dropWhile_idempotent]

/-- Two texts together are a blank line exactly if both of them are. -/
theorem isBlankLine_append (a b : List Char) :
    isBlankLine (a ++ b) = (isBlankLine a && isBlankLine b) :=
  List.all_append

/-- A line without the blanks at its end (`trimEnd`) is blank exactly if it was. -/
theorem isBlankLine_trimEnd (s : List Char) : isBlankLine (trimEnd s) = isBlankLine s := by
  obtain ⟨w, hw, hs⟩ := exists_eq_trimEnd_append s
  conv => rhs; rw [hs, isBlankLine_append, hw, Bool.and_true]

/-- The blanks at the front of a text that is not blank end within the text, whatever follows it. -/
theorem takeWhile_isBlank_append (h : isBlankLine a = false) (w : List Char) :
    (a ++ w).takeWhile isBlank = a.takeWhile isBlank := by
  rw [List.takeWhile_append]
  split
  · next hl =>
    have hall := (List.takeWhile_prefix isBlank).eq_of_length hl
    rw [isBlankLine, ← hall, List.all_takeWhile] at h
    cases h
  · rfl

/-- A line that is not blank has the same indentation without the blanks at its end. -/
theorem leadingBlank_trimEnd (h : isBlankLine s = false) :
    leadingBlank (trimEnd s) = leadingBlank s := by
  obtain ⟨w, hw, hs⟩ := exists_eq_trimEnd_append s
  have htrim : isBlankLine (trimEnd s) = false := (isBlankLine_trimEnd s).trans h
  conv => rhs; rw [hs, leadingBlank, takeWhile_isBlank_append htrim]
  rfl

/-- A line that is not blank is indented as deep without the blanks at its end. -/
theorem indentWidth_trimEnd (h : isBlankLine s = false) :
    indentWidth (trimEnd s) = indentWidth s := by
  rw [indentWidth, leadingBlank_trimEnd h, indentWidth]

/-- The spaces in front of a line are blank characters. -/
theorem isBlank_of_mem_replicate {k : Nat} {c : Char} (h : c ∈ List.replicate k ' ') :
    isBlank c = true := by
  obtain ⟨-, rfl⟩ := List.mem_replicate.1 h
  rfl

/-- Blanks `w` in front of a text that starts with none (`Stops`) are its whole indentation. -/
theorem leadingBlank_append (hw : isBlankLine w = true) (hs : Stops isBlank s) :
    leadingBlank (w ++ s) = w :=
  hs.takeWhile_run (List.all_eq_true.1 hw)

/-- The indentation of a line starts with the blanks `w` exactly if the line does. -/
theorem prefix_leadingBlank_iff (hw : isBlankLine w = true) : w <+: leadingBlank s ↔ w <+: s := by
  constructor
  · exact fun h => h.trans (List.takeWhile_prefix isBlank)
  · rintro ⟨t, rfl⟩
    rw [leadingBlank, List.takeWhile_append_of_pos (List.all_eq_true.1 hw)]
    exact List.prefix_append w _

/-- Blanks `w` in front of a text are trimmed away. -/
theorem trim_append_left (hw : isBlankLine w = true) (s : List Char) : trim (w ++ s) = trim s := by
  rw [trim, trimStart, List.dropWhile_append_of_pos (List.all_eq_true.1 hw), trim, trimStart]

/-- Only what is behind a character that is not blank can be trimmed away at the end of a text. -/
theorem trimEnd_append_cons {c : Char} (hc : isBlank c = false) (a s : List Char) :
    trimEnd (a ++ c :: s) = a ++ c :: trimEnd s := by
  have hreverse : (a ++ c :: s).reverse = s.reverse ++ (c :: a.reverse) := by simp
  rw [trimEnd, hreverse, (stops_cons hc a.reverse).dropWhile_append, List.reverse_append, trimEnd]
  simp

/-- A text around a character that is not blank is trimmed on both sides of it, each by itself. -/
theorem trim_append_cons {c : Char} (hc : isBlank c = false) (a s : List Char) :
    trim (a ++ c :: s) = trimStart a ++ c :: trimEnd s := by
  have hstart : trimStart (a ++ c :: s) = trimStart a ++ c :: s :=
    (stops_cons hc s).dropWhile_append a
  rw [trim, hstart, trimEnd_append_cons hc]

/-- No character that is not blank is trimmed away. -/
theorem mem_trim {c : Char} (hmem : c ∈ s) (hc : isBlank c = false) : c ∈ trim s := by
  obtain ⟨a, b, rfl⟩ := List.append_of_mem hmem
  rw [trim_append_cons hc]
  exact List.mem_append_right _ List.mem_cons_self

/-- A text that is not blank is blanks, a character that is not blank, and a rest. -/
theorem exists_of_not_blank (h : isBlankLine s = false) :
    ∃ w c t, isBlankLine w = true ∧ isBlank c = false ∧ s = w ++ c :: t := by
  obtain ⟨c, t, ht⟩ := List.exists_cons_of_ne_nil fun hnil =>
    Bool.false_ne_true (h.symm.trans ((trimStart_eq_nil_iff s).1 hnil))
  refine ⟨s.takeWhile isBlank, c, t, List.all_takeWhile, ?_, ?_⟩
  · have hhead := List.head?_dropWhile_not isBlank s
    rw [← trimStart, ht] at hhead
    simpa using hhead
  · rw [← ht, trimStart, List.takeWhile_append_dropWhile]

/-- Nothing is trimmed away at the end of a text before `s`, which is not blank. -/
theorem trimEnd_append_of_not_blank (h : isBlankLine s = false) (a : List Char) :
    trimEnd (a ++ s) = a ++ trimEnd s := by
  obtain ⟨w, c, t, -, hc, rfl⟩ := exists_of_not_blank h
  rw [← List.append_assoc, trimEnd_append_cons hc, trimEnd_append_cons hc, List.append_assoc]

/-- Neither is the line feed before `s`, if that is not blank. -/
theorem trimEnd_append_line (h : isBlankLine s = false) (a : List Char) :
    trimEnd (a ++ '\n' :: s) = a ++ '\n' :: trimEnd s := by
  rw [List.append_cons, trimEnd_append_of_not_blank h, ← List.append_cons]

/-- What is behind a text that is not blank does not change what is trimmed away in front of it. -/
theorem trimStart_append (h : isBlankLine s = false) (t : List Char) :
    trimStart (s ++ t) = trimStart s ++ t := by
  obtain ⟨w, c, u, hw, hc, rfl⟩ := exists_of_not_blank h
  have hstart (v : List Char) : trimStart (w ++ c :: v) = c :: v :=
    (stops_cons hc v).dropWhile_run (List.all_eq_true.1 hw)
  rw [List.append_assoc, List.cons_append, hstart, hstart, List.cons_append]

/-- A text that is trimmed at its end only is blanks and the text that `trim` leaves. -/
theorem exists_trimEnd_eq_append (s : List Char) :
    ∃ w, isBlankLine w = true ∧ trimEnd s = w ++ trim s := by
  cases h : isBlankLine s with
  | true =>
    refine ⟨[], rfl, ?_⟩
    rw [trim, (trimStart_eq_nil_iff s).2 h]
    exact trimEnd_append h []
  | false =>
    obtain ⟨w, c, t, hw, hc, rfl⟩ := exists_of_not_blank h
    have hstart : trimStart (w ++ c :: t) = c :: t :=
      (stops_cons hc t).dropWhile_run (List.all_eq_true.1 hw)
    refine ⟨w, hw, ?_⟩
    rw [trim, hstart, trimEnd_append_cons hc]
    exact congrArg (w ++ ·) (trimEnd_append_cons hc [] t).symm

/-- A text may be trimmed at its end first; `trim` leaves the same. -/
theorem trim_trimEnd (s : List Char) : trim (trimEnd s) = trim s := by
  obtain ⟨w, hw, hs⟩ := exists_eq_trimEnd_append s
  cases h : isBlankLine s with
  | true =>
    have htrim : isBlankLine (trimEnd s) = true := (isBlankLine_trimEnd s).trans h
    rw [trim, trim, (trimStart_eq_nil_iff _).2 h, (trimStart_eq_nil_iff _).2 htrim]
  | false =>
    have htrim : isBlankLine (trimEnd s) = false := (isBlankLine_trimEnd s).trans h
    conv => rhs; rw [hs, trim, trimStart_append htrim, trimEnd_append hw, ← trim]

/-- A carriage return at the end of a line goes with the blanks there (`trimEnd`). -/
theorem trimEnd_dropReturn (line : List Char) : trimEnd (dropReturn line) = trimEnd line := by
  unfold dropReturn
  split
  · next h =>
    obtain ⟨init, rfl⟩ := List.getLast?_eq_some_iff.1 h
    rw [List.dropLast_concat, trimEnd_append rfl]
  · rfl

/-- A line that is trimmed at its end has no carriage return there to drop. -/
theorem dropReturn_trimEnd (line : List Char) : dropReturn (trimEnd line) = trimEnd line := by
  refine if_neg fun hlast => ?_
  have hhead := List.head?_dropWhile_not isBlank line.reverse
  rw [trimEnd, List.getLast?_reverse] at hlast
  rw [hlast] at hhead
  cases hhead

/-- Without its carriage return a line is blank exactly if it is so with it. -/
theorem isBlankLine_dropReturn (line : List Char) :
    isBlankLine (dropReturn line) = isBlankLine line := by
  rw [← isBlankLine_trimEnd, trimEnd_dropReturn, isBlankLine_trimEnd]

/-- A line that is not blank has the same indentation without its carriage return. -/
theorem leadingBlank_dropReturn {line : List Char} (h : isBlankLine line = false) :
    leadingBlank (dropReturn line) = leadingBlank line := by
  have hdrop : isBlankLine (dropReturn line) = false := (isBlankLine_dropReturn line).trans h
  rw [← leadingBlank_trimEnd hdrop, trimEnd_dropReturn, leadingBlank_trimEnd h]

/-! ## The margin -/

/-- What two texts start with stays in front of what they have in common (`commonPrefix`). -/
theorem commonPrefix_append (w s t : List Char) :
    commonPrefix (w ++ s) (w ++ t) = w ++ commonPrefix s t := by
  induction w with
  | nil => rfl
  | cons c w ih => simp [commonPrefix, ih]

/-- A text is a start of both `s` and `t` exactly if it is one of their `commonPrefix`. -/
theorem prefix_commonPrefix_iff {s t : List Char} : a <+: commonPrefix s t ↔ a <+: s ∧ a <+: t := by
  constructor
  · intro h
    have hright := commonPrefix_prefix_left t s
    rw [commonPrefix_comm] at hright
    exact ⟨h.trans (commonPrefix_prefix_left s t), h.trans hright⟩
  · rintro ⟨⟨s', rfl⟩, t', rfl⟩
    rw [commonPrefix_append]
    exact List.prefix_append a _

/-- A text is a start of several texts exactly if it is one of what they all have in common,
whatever the order in which they are folded. -/
theorem prefix_foldl_commonPrefix_iff {first : List Char} {rest : List (List Char)} :
    a <+: rest.foldl commonPrefix first ↔ ∀ s ∈ first :: rest, a <+: s := by
  induction rest generalizing first with
  | nil => exact List.forall_mem_singleton.symm
  | cons next rest ih =>
    rw [List.foldl_cons, ih, List.forall_mem_cons, prefix_commonPrefix_iff, and_assoc,
      ← List.forall_mem_cons, ← List.forall_mem_cons]

/-- **The margin is the longest text with which the indentations of all lines that are not blank
start**, if there is such a line: its starts are exactly theirs. -/
theorem prefix_margin_iff {line : List Char} {lines : List (List Char)} (hline : line ∈ lines)
    (h : isBlankLine line = false) :
    a <+: margin lines ↔ ∀ l ∈ lines, isBlankLine l = false → a <+: leadingBlank l := by
  have hmem : leadingBlank line ∈ (lines.filter (!isBlankLine ·)).map leadingBlank :=
    List.mem_map_of_mem (List.mem_filter.2 ⟨hline, by rw [h]; rfl⟩)
  obtain ⟨first, rest, hcons⟩ := List.exists_cons_of_ne_nil (List.ne_nil_of_mem hmem)
  rw [margin, hcons]
  dsimp only
  rw [prefix_foldl_commonPrefix_iff, ← hcons, List.forall_mem_map]
  simp only [List.mem_filter, Bool.not_eq_true', and_imp]

/-- Blanks at the end of lines do not change their `margin`, since lines that are not blank keep
their indentation. -/
theorem margin_map_trimEnd (lines : List (List Char)) :
    margin (lines.map trimEnd) = margin lines := by
  have hindents : ((lines.map trimEnd).filter (!isBlankLine ·)).map leadingBlank
      = (lines.filter (!isBlankLine ·)).map leadingBlank := by
    induction lines with
    | nil => rfl
    | cons line lines ih =>
      rw [List.map_cons]
      cases h : isBlankLine line with
      | true =>
        rw [List.filter_cons_of_neg (by simp [isBlankLine_trimEnd, h]),
          List.filter_cons_of_neg (by simp [h]), ih]
      | false =>
        rw [List.filter_cons_of_pos (by simp [isBlankLine_trimEnd, h]),
          List.filter_cons_of_pos (by simp [h]), List.map_cons, List.map_cons, ih,
          leadingBlank_trimEnd h]
  rw [margin, hindents, margin]

/-- A line without a margin has no characters that it did not have. -/
theorem withoutMargin_subset (m line : List Char) : withoutMargin m line ⊆ line := by
  unfold withoutMargin
  split
  · exact List.nil_subset line
  · exact List.Subset.trans (trimEnd_subset _) (List.drop_subset _ line)

/-- A text `s` that is not blank is left behind its margin, with the further blanks `w` before it.
-/
theorem withoutMargin_append (h : isBlankLine s = false) (m w : List Char) :
    withoutMargin m (m ++ (w ++ s)) = w ++ trimEnd s := by
  have hblank : isBlankLine (m ++ (w ++ s)) = false := by
    rw [isBlankLine_append, isBlankLine_append, h, Bool.and_false, Bool.and_false]
  rw [withoutMargin, hblank, List.drop_left, trimEnd_append_of_not_blank h]
  rfl

/-- Blanks at the end of a line go with its margin (`withoutMargin`), so they may be trimmed before.
-/
theorem withoutMargin_trimEnd (margin line : List Char) :
    withoutMargin margin (trimEnd line) = withoutMargin margin line := by
  obtain ⟨w, hw, hline⟩ := exists_eq_trimEnd_append line
  have hrest : isBlankLine (w.drop (margin.length - (trimEnd line).length)) = true := by
    rw [← List.take_append_drop (margin.length - (trimEnd line).length) w, isBlankLine_append,
      Bool.and_eq_true] at hw
    exact hw.2
  rw [withoutMargin, isBlankLine_trimEnd, withoutMargin]
  split
  · rfl
  · conv => rhs; rw [hline, List.drop_append, trimEnd_append hrest]

/-- **Blanks at the end of lines go with their margin (`dedent`)**, so they may be trimmed before.
-/
theorem dedent_map_trimEnd (lines : List (List Char)) :
    dedent (lines.map trimEnd) = dedent lines := by
  rw [dedent, margin_map_trimEnd, List.flatMap_map]
  simp only [withoutMargin_trimEnd]
  rfl

end WorkflowTemplates.Text
