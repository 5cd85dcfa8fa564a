import WorkflowTemplates.Proofs.Text.Runs
import WorkflowTemplates.Text.Lines

/-!
# Lines of texts

The first line of a text ends at the first line feed (`lines_cons`), and the lines behind a line
feed are lines of their own (`exists_lines_append`); only the line before it changes, if it ends in
a carriage return. A text of lines is cut at a line feed between two of them (`ended_eq_append`),
and its lines are these (`lines_joinLines`).
-/

namespace WorkflowTemplates.Text

variable {sep : Char} {a b line : List Char} {ls : List (List Char)}

/-! ## Pieces -/

/-- A text `a` without separators belongs to the first piece of what goes on behind it
(`List.splitOn`). -/
theorem splitOn_append (h : sep ∉ a) (b : List Char) :
    (a ++ b).splitOn sep = (b.splitOn sep).modifyHead (a ++ ·) := by
  induction a with
  | nil => exact (congrFun List.modifyHead_id (b.splitOn sep)).symm
  | cons c a ih =>
    rw [List.mem_cons, not_or] at h
    rw [List.cons_append, List.splitOn_cons_eq_if_modifyHead, if_neg (by simpa using Ne.symm h.1),
      ih h.2, List.modifyHead_modifyHead]
    rfl

/-- No piece of a split text (`List.splitOn`) has a separator. -/
theorem notMem_of_mem_splitOn {s piece : List Char} (h : piece ∈ s.splitOn sep) : sep ∉ piece := by
  induction s generalizing piece with
  | nil =>
    rw [List.splitOn_nil, List.mem_singleton] at h
    exact h ▸ List.not_mem_nil
  | cons c s ih =>
    rw [List.splitOn_cons_eq_if_modifyHead] at h
    split at h
    · rcases List.mem_cons.1 h with rfl | h
      · exact List.not_mem_nil
      · exact ih h
    next hc =>
    obtain ⟨first, pieces, hs⟩ := List.exists_cons_of_ne_nil (List.splitOn_ne_nil sep s)
    rw [hs, List.modifyHead_cons, List.mem_cons] at h
    rw [hs] at ih
    rcases h with rfl | h
    · rw [List.mem_cons, not_or]
      exact ⟨fun hsep => hc (beq_iff_eq.2 hsep.symm), ih List.mem_cons_self⟩
    · exact ih (List.mem_cons_of_mem _ h)

/-! ## Lines -/

/-- A text `a` without line feeds is a line before a line feed, without its carriage return. -/
theorem lines_cons (h : '\n' ∉ a) (b : List Char) :
    lines (a ++ '\n' :: b) = dropReturn a :: lines b := by
  obtain ⟨piece, pieces, hb⟩ := List.exists_cons_of_ne_nil (List.splitOn_ne_nil '\n' b)
  rw [lines, lines, List.splitOn_append_cons_self_of_not_mem h, hb]
  rfl

/-- A text `a` without line feeds is a line of its own, if it has a character; its carriage return
is kept. -/
theorem lines_single (h : '\n' ∉ a) (ha : a ≠ []) : lines a = [a] := by
  rw [lines, List.splitOn_eq_singleton h, endedLines, List.isEmpty_eq_false_iff.2 ha,
    if_neg Bool.false_ne_true]

/-- A line that ends in a character other than the carriage return keeps it. -/
theorem dropReturn_concat {c : Char} (h : c ≠ '\r') (a : List Char) :
    dropReturn (a ++ [c]) = a ++ [c] := by
  rw [dropReturn, List.getLast?_concat, if_neg fun he => h (Option.some.inj he)]

/-- A carriage return behind a text that does not end in one belongs to what is behind the text. -/
theorem dropReturn_append (h : a.getLast? ≠ some '\r') (b : List Char) :
    dropReturn (a ++ b) = a ++ dropReturn b := by
  rcases List.eq_nil_or_concat b with rfl | ⟨init, last, rfl⟩
  · rw [List.append_nil, dropReturn, if_neg h]
    exact (List.append_nil a).symm
  · rw [List.concat_eq_append, ← List.append_assoc, dropReturn, dropReturn, List.getLast?_concat,
      List.getLast?_concat, List.dropLast_concat, List.dropLast_concat]
    split
    · rfl
    · exact List.append_assoc ..

/-- A text `a` without line feeds has none to count (`countBreaks`). -/
theorem countBreaks_eq_zero (h : '\n' ∉ a) : countBreaks a = 0 :=
  List.count_eq_zero.2 h

/-- A line without its carriage return has no characters that it did not have. -/
theorem dropReturn_subset (line : List Char) : dropReturn line ⊆ line := by
  unfold dropReturn
  split
  · exact List.dropLast_subset line
  · exact List.Subset.refl line

/-- Pieces `ls` that others follow are lines, each without its carriage return. -/
theorem endedLines_append {pieces : List (List Char)} (h : pieces ≠ []) (ls : List (List Char)) :
    endedLines (ls ++ pieces) = ls.map dropReturn ++ endedLines pieces := by
  induction ls with
  | nil => rfl
  | cons line ls ih =>
    obtain ⟨first, rest, hrest⟩ :=
      List.exists_cons_of_ne_nil (List.append_ne_nil_of_right_ne_nil ls h)
    rw [List.cons_append, hrest, endedLines, ← hrest, ih]
    · rfl
    · exact List.cons_ne_nil first rest

/-- A line among pieces (`endedLines`) has no characters that one of them did not have. -/
theorem subset_of_mem_endedLines (h : line ∈ endedLines ls) : ∃ piece ∈ ls, line ⊆ piece := by
  induction ls using endedLines.induct with
  | case1 => cases h
  | case2 last hlast =>
    rw [endedLines, if_pos hlast] at h
    cases h
  | case3 last hlast =>
    rw [endedLines, if_neg hlast] at h
    exact ⟨line, h, List.Subset.refl line⟩
  | case4 piece rest hrest ih =>
    rw [endedLines] at h
    · rcases List.mem_cons.1 h with rfl | h
      · exact ⟨piece, List.mem_cons_self, dropReturn_subset piece⟩
      · obtain ⟨piece', hpiece, hline⟩ := ih h
        exact ⟨piece', List.mem_cons_of_mem _ hpiece, hline⟩
    · exact hrest

/-- No line of a text (`lines`) has a line feed. -/
theorem newline_notMem_of_mem_lines {s : List Char} (h : line ∈ lines s) : '\n' ∉ line := by
  obtain ⟨piece, hpiece, hline⟩ := subset_of_mem_endedLines h
  exact fun hm => notMem_of_mem_splitOn hpiece (hline hm)

/-- The first line of a text ends at its first line feed (`firstLine`). -/
theorem firstLine_append (h : '\n' ∉ line) (behind : List Char) :
    firstLine (line ++ '\n' :: behind) = line := by
  refine (stops_cons (by decide) behind).takeWhile_run fun c hc => bne_iff_ne.2 ?_
  rintro rfl
  exact h hc

/-- Behind a text `a` and a line feed, the lines of any other text follow its own lines. Its last
line may lose a carriage return; if the text ended in a line feed, an empty line comes between. -/
theorem exists_lines_append {init : List (List Char)} {last : List Char}
    (h : lines a = init ++ [last]) :
    ∃ last' gap, (last' = last ∨ last' = dropReturn last) ∧ (gap = [] ∨ gap = [[]])
      ∧ ∀ b, lines (a ++ '\n' :: b) = init ++ last' :: (gap ++ lines b) := by
  obtain ⟨pieces, piece, hsplit⟩ : ∃ pieces piece, a.splitOn '\n' = pieces ++ [piece] :=
    ⟨_, _, (List.dropLast_concat_getLast (List.splitOn_ne_nil '\n' a)).symm⟩
  have hlines (b : List Char) :
      lines (a ++ '\n' :: b) = pieces.map dropReturn ++ dropReturn piece :: lines b := by
    rw [lines, List.splitOn_append_cons_self, endedLines_append (List.splitOn_ne_nil '\n' b), hsplit,
      List.map_append, List.append_assoc]
    rfl
  rw [lines, hsplit, endedLines_append (List.cons_ne_nil piece []), endedLines] at h
  split at h
  · next hempty =>
    rw [List.append_nil] at h
    refine ⟨last, [[]], .inl rfl, .inr rfl, fun b => ?_⟩
    rw [hlines, h, List.isEmpty_iff.1 hempty, List.append_assoc]
    rfl
  · obtain ⟨hinit, hlast⟩ := List.append_inj' h rfl
    rw [List.singleton_inj] at hlast
    refine ⟨dropReturn last, [], .inr rfl, .inl rfl, fun b => ?_⟩
    rw [hlines, hinit, hlast]
    rfl

/-! ## Texts of lines -/

/-- The text of the lines `ls`, each of which is ended by a line feed. -/
def ended (ls : List (List Char)) : List Char :=
  ls.flatMap (· ++ ['\n'])

/-- The text of lines (`ended`), the first of which is taken off. -/
theorem ended_cons (line : List Char) (ls : List (List Char)) :
    ended (line :: ls) = line ++ '\n' :: ended ls := by
  rw [ended, List.flatMap_cons, List.append_assoc]
  rfl

/-- One line is its own text: `joinLines` puts line feeds only between lines. -/
theorem joinLines_singleton (line : List Char) : joinLines [line] = line :=
  List.intercalate_singleton

/-- Lines `ls` before others are each ended by a line feed when they are joined. -/
theorem joinLines_append {others : List (List Char)} (h : others ≠ []) (ls : List (List Char)) :
    joinLines (ls ++ others) = ended ls ++ joinLines others := by
  induction ls with
  | nil => rfl
  | cons line ls ih =>
    obtain ⟨first, rest, hrest⟩ :=
      List.exists_cons_of_ne_nil (List.append_ne_nil_of_right_ne_nil ls h)
    rw [List.cons_append, hrest, joinLines, List.intercalate_cons_cons, ← joinLines, ← hrest, ih,
      ended_cons, List.append_assoc, List.append_assoc]
    rfl

/-- Lines that are each ended (`ended`) are these lines and an empty one, joined. -/
theorem joinLines_concat_nil (ls : List (List Char)) : joinLines (ls ++ [[]]) = ended ls := by
  rw [joinLines_append (List.cons_ne_nil [] []), joinLines_singleton, List.append_nil]

/-- The pieces of lines that are each ended are the lines, and an empty piece behind the last line
feed. -/
theorem splitOn_ended (h : ∀ line ∈ ls, '\n' ∉ line) : (ended ls).splitOn '\n' = ls ++ [[]] := by
  have hfree : ∀ line ∈ ls ++ [[]], '\n' ∉ line := by
    intro line hline
    rcases List.mem_append.1 hline with hline | hline
    · exact h line hline
    · rw [List.mem_singleton.1 hline]
      exact List.not_mem_nil
  rw [← joinLines_concat_nil]
  exact List.splitOn_intercalate '\n' hfree (List.concat_ne_nil [] ls)

/-- The pieces of a text, each ended by a line feed, are the text and one line feed more. -/
theorem ended_splitOn (s : List Char) : ended (s.splitOn '\n') = s ++ ['\n'] := by
  have hsplit : (s ++ ['\n']).splitOn '\n' = s.splitOn '\n' ++ [[]] :=
    List.splitOn_append_cons_self s []
  rw [← joinLines_concat_nil, ← hsplit, joinLines, List.intercalate_splitOn]

/-- Lines that are each ended are lines of a text that goes on behind them with `b`; they lose their
carriage returns. -/
theorem lines_ended_append (h : ∀ line ∈ ls, '\n' ∉ line) (b : List Char) :
    lines (ended ls ++ b) = ls.map dropReturn ++ lines b := by
  induction ls with
  | nil => rfl
  | cons line ls ih =>
    rw [ended_cons, List.append_assoc, List.cons_append, lines_cons (h line List.mem_cons_self),
      ih fun l hl => h l (List.mem_cons_of_mem _ hl)]
    rfl

/-- Lines that are each ended are the lines of their text, without their carriage returns. -/
theorem lines_ended (h : ∀ line ∈ ls, '\n' ∉ line) : lines (ended ls) = ls.map dropReturn := by
  have hlines := lines_ended_append h []
  rwa [List.append_nil, show lines [] = [] from rfl, List.append_nil] at hlines

/-- Lines that are joined are the lines of their text, without their carriage returns, whether or
not the last one is ended by a line feed. The last one must not be empty, or it would be no line. -/
theorem lines_joinLines {last ending : List Char} (h : ∀ line ∈ ls ++ [last], '\n' ∉ line)
    (hne : last ≠ []) (hlast : dropReturn last = last) (hending : ending = [] ∨ ending = ['\n']) :
    lines (joinLines (ls ++ [last]) ++ ending) = (ls ++ [last]).map dropReturn := by
  have hsplit : (joinLines (ls ++ [last])).splitOn '\n' = ls ++ [last] :=
    List.splitOn_intercalate '\n' h (List.concat_ne_nil last ls)
  rcases hending with rfl | rfl
  · rw [List.append_nil, lines, hsplit, endedLines_append (List.cons_ne_nil last []), endedLines,
      if_neg (by simpa using hne), List.map_append, List.map_singleton, hlast]
  · rw [lines, List.splitOn_append_cons_self, hsplit, List.splitOn_nil,
      endedLines_append (List.cons_ne_nil [] [])]
    exact List.append_nil _

/-- A text of lines that are each ended ends in a line feed, if it has a character. -/
theorem getLast?_ended {c : Char} (h : (ended ls).getLast? = some c) : c = '\n' := by
  rcases List.eq_nil_or_concat ls with rfl | ⟨init, last, rfl⟩
  · cases h
  · rw [List.concat_eq_append, ended, List.flatMap_append, List.flatMap_singleton,
      ← List.append_assoc, List.getLast?_concat] at h
    exact (Option.some.inj h).symm

/-- A carriage return behind lines that are each ended belongs to the text behind them. -/
theorem dropReturn_ended_append (ls : List (List Char)) (b : List Char) :
    dropReturn (ended ls ++ b) = ended ls ++ dropReturn b :=
  dropReturn_append (fun h => absurd (getLast?_ended h) (by decide)) b

/-- Lines that are each ended have as many line feeds (`countBreaks`) as there are lines. -/
theorem countBreaks_ended (h : ∀ line ∈ ls, '\n' ∉ line) : countBreaks (ended ls) = ls.length := by
  induction ls with
  | nil => rfl
  | cons line ls ih =>
    have hline : line.count '\n' = 0 := List.count_eq_zero.2 (h line List.mem_cons_self)
    have hrest := ih fun line hl => h line (List.mem_cons_of_mem _ hl)
    rw [countBreaks] at hrest ⊢
    rw [ended_cons, List.count_append, hline, List.count_cons_self, hrest, Nat.zero_add,
      List.length_cons]

/-- Behind one of its line feeds a text of lines goes on with the lines that are left: those behind
as many as there are line feeds up to it. -/
theorem ended_eq_append (h : ∀ line ∈ ls, '\n' ∉ line) (heq : ended ls = a ++ '\n' :: b) :
    b = ended (ls.drop (countBreaks a + 1)) := by
  induction ls generalizing a with
  | nil => exact absurd heq.symm (List.append_ne_nil_of_right_ne_nil a (List.cons_ne_nil _ b))
  | cons line ls ih =>
    have hline := h line List.mem_cons_self
    have hrest : ∀ line ∈ ls, '\n' ∉ line := fun line hl => h line (List.mem_cons_of_mem _ hl)
    have hcount : countBreaks line = 0 := List.count_eq_zero.2 hline
    rw [ended_cons] at heq
    -- The line feed in question ends the first line, or stands behind it, but not in it.
    rcases List.append_eq_append_iff.1 heq with ⟨c, rfl, hc⟩ | ⟨c, rfl, hc⟩
    · cases c with
      | nil =>
        rw [List.append_nil, hcount]
        exact (List.cons.inj hc).2.symm
      | cons d c =>
        rw [List.cons_append, List.cons.injEq] at hc
        obtain ⟨rfl, hc⟩ := hc
        have hbreaks : countBreaks (line ++ '\n' :: c) = countBreaks c + 1 := by
          rw [countBreaks] at hcount ⊢
          rw [List.count_append, hcount, List.count_cons_self, Nat.zero_add]
          rfl
        rw [hbreaks]
        exact ih hrest hc
    · cases c with
      | nil =>
        rw [List.append_nil] at hcount
        rw [hcount]
        exact (List.cons.inj hc).2
      | cons d c =>
        obtain ⟨rfl, -⟩ := List.cons.inj hc
        exact absurd (List.mem_append_right a List.mem_cons_self) hline

/-- A character that stands in lines and another text, behind fewer line feeds than there are lines,
stands in the lines; behind it one of them ends. -/
theorem exists_break_of_ended_append {head behind last : List Char} {c : Char}
    (h : ∀ line ∈ ls, '\n' ∉ line) (hc : c ≠ '\n')
    (heq : ended ls ++ last = head ++ c :: behind) (hlt : countBreaks head < ls.length) :
    ∃ line behind', '\n' ∉ line ∧ ended ls = head ++ c :: (line ++ '\n' :: behind')
      ∧ behind = line ++ '\n' :: (behind' ++ last) := by
  have hcount := countBreaks_ended h
  rw [countBreaks] at hlt hcount
  obtain ⟨middle, hended, hbehind⟩ | ⟨beyond, hbeyond, -⟩ := List.append_eq_append_iff.1 heq.symm
  · rw [hended, List.count_append] at hcount
    cases middle with
    | nil =>
      rw [List.count_nil] at hcount
      omega
    | cons d middle =>
      rw [List.cons_append, List.cons.injEq] at hbehind
      obtain ⟨rfl, hbehind⟩ := hbehind
      rw [List.count_cons_of_ne hc] at hcount
      have hbreak : '\n' ∈ middle := List.count_pos_iff.1 (by omega)
      obtain ⟨line, behind', rfl, hline⟩ := List.eq_append_cons_of_mem hbreak
      exact ⟨line, behind', hline, hended, by rw [hbehind, List.append_assoc, List.cons_append]⟩
  · rw [hbeyond, List.count_append, hcount] at hlt
    omega

end WorkflowTemplates.Text
