import Mathlib.Data.List.Basic
import WorkflowTemplates.Proofs.Text.Lines
import WorkflowTemplates.Proofs.Text.Margin
import WorkflowTemplates.Proofs.Text.Trim

/-!
# Blocks of lines

The lines of a block are blank, or a text behind the indentation of the block and perhaps some more
blanks (`BlockLine`). The margin of a block is its indentation and the least number of further
blanks, and its lines without their margin keep the other ones (`dedent_block`). Such lines are a
block that is not indented, so the margin may be removed again (`dedent_shown`).
-/

namespace WorkflowTemplates.Text

variable {s : List Char}

/-- A line of a block: a blank line of the characters `w`, or a text `s` and how much deeper than
the block it is indented. -/
inductive BlockLine
  | blank (w : List Char)
  | text (extra : Nat) (s : List Char)

namespace BlockLine

variable {l : BlockLine} {ls : List BlockLine}

/-- The line of a block that is indented by `base` spaces, as source text has it. -/
def line (base : Nat) : BlockLine → List Char
  | blank w => w
  | text extra s => List.replicate (base + extra) ' ' ++ s

/-- The line without `m` of its further spaces and without the indentation of the block; a blank
line becomes empty. -/
def shown (m : Nat) : BlockLine → List Char
  | blank _ => []
  | text extra s => List.replicate (extra - m) ' ' ++ s

/-- The number of further spaces of a line; a blank line has none. -/
def extra? : BlockLine → Option Nat
  | blank _ => none
  | text extra _ => some extra

/-- Whether a line is blank, by its constructor. -/
def isGap : BlockLine → Bool
  | blank _ => true
  | text .. => false

/-- The least number of further spaces in front of a text, zero if there is none. -/
def least (ls : List BlockLine) : Nat :=
  (ls.filterMap extra?).min?.getD 0

/-- A blank line is blank, a text is not and neither starts nor ends with a blank, and both stay on
their line (`Trimmed`). -/
def WellFormed : BlockLine → Prop
  | blank w => isBlankLine w = true ∧ '\n' ∉ w
  | text _ s => s ≠ [] ∧ Trimmed s ∧ '\n' ∉ s

/-- The line as `lines` reads it: a carriage return at the end, which only a blank line can have, is
dropped. -/
def chomped : BlockLine → BlockLine
  | blank w => blank (dropReturn w)
  | text extra s => text extra s

/-- The line with blank lines emptied, as `withoutMargin` leaves them. -/
def emptied : BlockLine → BlockLine
  | blank _ => blank []
  | text extra s => text extra s

/-! ## One line -/

/-- A trimmed text behind spaces is not blank (`Trimmed`). -/
theorem isBlankLine_replicate (hne : s ≠ []) (hs : Trimmed s) (k : Nat) :
    isBlankLine (List.replicate k ' ' ++ s) = false := by
  obtain ⟨c, t, rfl⟩ := List.exists_cons_of_ne_nil hne
  have hc : isBlank c = false := hs.start c t rfl
  simp [isBlankLine, hc]

/-- The spaces in front of a trimmed text are the indentation of its line (`Trimmed`). -/
theorem leadingBlank_replicate (hs : Trimmed s) (k : Nat) :
    leadingBlank (List.replicate k ' ' ++ s) = List.replicate k ' ' :=
  leadingBlank_append (List.all_eq_true.2 fun _ => isBlank_of_mem_replicate) hs.start

/-- A trimmed text behind spaces has nothing to trim at its end (`Trimmed`). -/
theorem trimEnd_replicate (hs : Trimmed s) (hne : s ≠ []) (k : Nat) :
    trimEnd (List.replicate k ' ' ++ s) = List.replicate k ' ' ++ s := by
  obtain ⟨c, u, hu⟩ := List.exists_cons_of_ne_nil (List.reverse_ne_nil_iff.2 hne)
  have hc : isBlank c = false := hs.stop c u hu
  rw [trimEnd, List.reverse_append, hu, List.cons_append,
    List.dropWhile_cons_of_neg (by simp [hc]), ← List.cons_append, ← hu, ← List.reverse_append,
    List.reverse_reverse]

/-- No line of a block has a line feed, if it is `WellFormed`. -/
theorem newline_notMem_line (h : l.WellFormed) (base : Nat) : '\n' ∉ l.line base := by
  cases l with
  | blank w => exact h.2
  | text extra s =>
    intro hm
    rcases List.mem_append.1 hm with hm | hm
    · obtain ⟨-, heq⟩ := List.mem_replicate.1 hm
      cases heq
    · exact h.2.2 hm

/-- A line without its carriage return is the line as it is read (`chomped`). -/
theorem dropReturn_line (h : l.WellFormed) (base : Nat) :
    dropReturn (l.line base) = l.chomped.line base := by
  cases l with
  | blank w => rfl
  | text extra s => exact h.2.1.dropReturn_append h.1 _

/-- The line as it is read is a line of the block again. -/
theorem WellFormed.chomped (h : l.WellFormed) : l.chomped.WellFormed := by
  cases l with
  | blank w =>
    refine ⟨?_, fun hm => h.2 (dropReturn_subset w hm)⟩
    rw [isBlankLine_dropReturn]
    exact h.1
  | text extra s => exact h

/-- An emptied line is a line of the block again. -/
theorem WellFormed.emptied (h : l.WellFormed) : l.emptied.WellFormed := by
  cases l with
  | blank w => exact ⟨rfl, List.not_mem_nil⟩
  | text extra s => exact h

/-- A carriage return does not change what is `shown` of a line. -/
theorem shown_chomped (m : Nat) (l : BlockLine) : l.chomped.shown m = l.shown m := by
  cases l <;> rfl

/-- What is `shown` of an emptied line is what is shown of the line. -/
theorem shown_emptied (m : Nat) (l : BlockLine) : l.emptied.shown m = l.shown m := by
  cases l <;> rfl

/-- With all of their further spaces, lines are shown as those of a block that is not indented. -/
theorem shown_zero (l : BlockLine) : l.shown 0 = l.emptied.line 0 := by
  cases l with
  | blank w => rfl
  | text extra s => rw [shown, emptied, line, Nat.sub_zero, Nat.zero_add]

/-- Emptying a blank line does not change by how much a line is deeper than its block. -/
theorem extra?_emptied (l : BlockLine) : l.emptied.extra? = l.extra? := by
  cases l <;> rfl

/-- A carriage return does not change by how much a line is deeper than its block. -/
theorem extra?_chomped (l : BlockLine) : l.chomped.extra? = l.extra? := by
  cases l <;> rfl

/-- A change `f` of lines that leaves their further spaces as they are does not change the `least`
number of them. -/
theorem least_map {f : BlockLine → BlockLine} (h : ∀ l, (f l).extra? = l.extra?)
    (ls : List BlockLine) : least (ls.map f) = least ls := by
  rw [least, List.filterMap_map, least]
  congr 3
  funext l
  exact h l

/-- The lines of a block without their carriage returns are its lines as they are read (`chomped`).
-/
theorem map_dropReturn_block (h : ∀ l ∈ ls, l.WellFormed) (base : Nat) :
    (ls.map (line base)).map dropReturn = (ls.map chomped).map (line base) := by
  rw [List.map_map, List.map_map]
  exact List.map_congr_left fun l hl => dropReturn_line (h l hl) base

/-! ## Blank lines at the end -/

/-- A block with a text in it is what is left of it without the blank lines at its end, which then
ends with a text, and these lines. -/
theorem exists_rdropWhile {extra : Nat} (hs : text extra s ∈ ls) :
    ∃ core extra' s' gap, ls.rdropWhile isGap = core ++ [text extra' s']
      ∧ ls = core ++ text extra' s' :: gap ∧ ∀ l ∈ gap, l.isGap = true := by
  induction ls using List.reverseRecOn with
  | nil => cases hs
  | append_singleton init l ih =>
    cases l with
    | text extra' s' =>
      refine ⟨init, extra', s', [], ?_, rfl, List.forall_mem_nil _⟩
      exact List.rdropWhile_concat_neg _ _ _ Bool.false_ne_true
    | blank w =>
      have hinit : text extra s ∈ init := by simpa using hs
      obtain ⟨core, extra', s', gap, hdrop, rfl, hgap⟩ := ih hinit
      refine ⟨core, extra', s', gap ++ [blank w], ?_, by simp, ?_⟩
      · rw [List.rdropWhile_concat_pos _ _ _ rfl, hdrop]
      · exact List.forall_mem_append.2 ⟨hgap, List.forall_mem_singleton.2 rfl⟩

/-! ## The margin of a block -/

/-- Two runs of spaces have the shorter one in common. -/
theorem commonPrefix_replicate (a b : Nat) :
    commonPrefix (List.replicate a ' ') (List.replicate b ' ') = List.replicate (min a b) ' ' := by
  induction a generalizing b with
  | zero => simp [commonPrefix]
  | succ a ih =>
    cases b with
    | zero => simp [commonPrefix, List.replicate_succ]
    | succ b =>
      rw [List.replicate_succ, List.replicate_succ, commonPrefix, if_pos rfl, ih,
        Nat.succ_min_succ, List.replicate_succ]

/-- Runs of spaces behind `base` ones have the shortest one in common. -/
theorem foldl_commonPrefix_replicate (base first : Nat) (rest : List Nat) :
    (rest.map fun extra => List.replicate (base + extra) ' ').foldl commonPrefix
        (List.replicate (base + first) ' ')
      = List.replicate (base + rest.foldl min first) ' ' := by
  induction rest generalizing first with
  | nil => rfl
  | cons extra rest ih =>
    rw [List.map_cons, List.foldl_cons, commonPrefix_replicate, Nat.add_min_add_left, ih,
      List.foldl_cons]

/-- The indentations of the lines of a block that are not blank, each the indentation of the block
and its further spaces. -/
theorem indentations_block (h : ∀ l ∈ ls, l.WellFormed) (base : Nat) :
    ((ls.map (line base)).filter (!isBlankLine ·)).map leadingBlank
      = (ls.filterMap extra?).map fun extra => List.replicate (base + extra) ' ' := by
  induction ls with
  | nil => rfl
  | cons l ls ih =>
    have hrest := ih fun l hl => h l (List.mem_cons_of_mem _ hl)
    have hline := h l List.mem_cons_self
    cases l with
    | blank w =>
      have hblank : isBlankLine ((blank w).line base) = true := hline.1
      rw [List.filterMap_cons_none rfl, ← hrest]
      simp [hblank]
    | text extra s =>
      have hblank : isBlankLine ((text extra s).line base) = false :=
        isBlankLine_replicate hline.1 hline.2.1 _
      have hleading : leadingBlank ((text extra s).line base) = List.replicate (base + extra) ' ' :=
        leadingBlank_replicate hline.2.1 _
      simp [extra?, hblank, hleading, hrest]

/-- The `margin` of a block with a text in it is its indentation and the `least` number of further
spaces. -/
theorem margin_block (h : ∀ l ∈ ls, l.WellFormed) {extra : Nat} (hs : text extra s ∈ ls)
    (base : Nat) : margin (ls.map (line base)) = List.replicate (base + least ls) ' ' := by
  have hmem : extra ∈ ls.filterMap extra? := List.mem_filterMap.2 ⟨_, hs, rfl⟩
  obtain ⟨first, rest, hextras⟩ := List.exists_cons_of_ne_nil (List.ne_nil_of_mem hmem)
  rw [margin, indentations_block h, least, hextras, List.map_cons, List.min?_cons',
    Option.getD_some]
  exact foldl_commonPrefix_replicate base first rest

/-- A text of a block has no fewer further spaces than the `least` number of them. -/
theorem least_le {extra : Nat} (hs : text extra s ∈ ls) : least ls ≤ extra := by
  have hmem : extra ∈ ls.filterMap extra? := List.mem_filterMap.2 ⟨_, hs, rfl⟩
  obtain ⟨n, hn⟩ := Option.isSome_iff_exists.1 (List.isSome_min?_of_mem hmem)
  rw [least, hn]
  exact (List.le_min?_iff hn).1 (Nat.le_refl n) extra hmem

/-- The `least` number of further spaces is zero if a text has none. -/
theorem least_eq_zero (hs : text 0 s ∈ ls) : least ls = 0 :=
  Nat.eq_zero_of_le_zero (least_le hs)

/-- **A block without its margin (`dedent`)** keeps the further spaces of each line but the `least`
number of them, each line ended by a line feed. -/
theorem dedent_block (h : ∀ l ∈ ls, l.WellFormed) (base : Nat) :
    dedent (ls.map (line base)) = ended (ls.map (shown (least ls))) := by
  rw [dedent, ended, List.flatMap_map, List.flatMap_map]
  refine List.flatMap_congr fun l hl => ?_
  have hline := h l hl
  cases l with
  | blank w => simp [line, shown, withoutMargin, hline.1]
  | text extra s =>
    have hle : least ls ≤ extra := least_le hl
    have hblank : isBlankLine ((text extra s).line base) = false :=
      isBlankLine_replicate hline.1 hline.2.1 _
    have hsplit : List.replicate (base + extra) ' ' ++ s
        = List.replicate (base + least ls) ' ' ++ (List.replicate (extra - least ls) ' ' ++ s) := by
      rw [← List.append_assoc, List.replicate_append_replicate]
      congr 2
      omega
    have hdrop : ((text extra s).line base).drop (base + least ls)
        = List.replicate (extra - least ls) ' ' ++ s := by
      rw [line, hsplit, List.drop_left' List.length_replicate]
    rw [margin_block h hl, withoutMargin, hblank, List.length_replicate, hdrop,
      trimEnd_replicate hline.2.1 hline.1]
    rfl

/-- The lines of a block without its indentation lose the rest of their margin when they are read as
a block again. -/
theorem dedent_shown (h : ∀ l ∈ ls, l.WellFormed) :
    dedent (ls.map (shown 0)) = ended (ls.map (shown (least ls))) := by
  have hemptied : ∀ l ∈ ls.map emptied, l.WellFormed :=
    List.forall_mem_map.2 fun l hl => (h l hl).emptied
  have hlines : ls.map (shown 0) = (ls.map emptied).map (line 0) := by
    rw [List.map_map]
    exact List.map_congr_left fun l _ => shown_zero l
  rw [hlines, dedent_block hemptied, least_map extra?_emptied, List.map_map]
  congr 2
  funext l
  exact shown_emptied _ l

end BlockLine

end WorkflowTemplates.Text
