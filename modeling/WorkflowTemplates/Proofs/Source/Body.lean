import Mathlib.Data.List.TakeWhile
import WorkflowTemplates.Proofs.Source.LineEnd
import WorkflowTemplates.Proofs.Text.Block
import WorkflowTemplates.Proofs.Text.Margin

/-!
# Bodies with lines behind them

The lines of a body are found from the front, so lines behind a text can only prolong its body
(`exists_body?_append`). They leave it as it is if the text ends where a logical line may start
(`EndsLine`) and they start outside the body (`StartsOutside`): then at most blank lines are added,
and these are dropped from its end (`body?_append`). A block of lines that is indented deeper than
the definition is the body, without its margin (`body?_block`).
-/

namespace WorkflowTemplates.Source

open Text (BlockLine ended indentWidth isBlankLine trim trimEnd)

variable {indent : Nat} {starts : Bool} {last last' : List Char} {ls more extra : List (List Char)}

/-! ## Lines that end a body -/

/-- The first of the lines that is not blank ends a body behind a definition that is indented so
deep: it is no comment and no deeper indented. Where all lines are blank there is nothing to ask
for. -/
def StartsOutside (indent : Nat) (lines : List (List Char)) : Prop :=
  ∀ line, lines.find? (!isBlankLine ·) = some line →
    isBlankOrComment line = false ∧ indentWidth line ≤ indent

/-! ## Blanks at the end of a line -/

/-- Blanks at the end of a line do not tell whether it ends a body: `endsBody` looks at its start.
-/
theorem endsBody_congr (h : trimEnd last' = trimEnd last) :
    Line.endsBody indent ⟨starts, last'⟩ = Line.endsBody indent ⟨starts, last⟩ := by
  have htrim : trim last' = trim last := by rw [← Text.trim_trimEnd, h, Text.trim_trimEnd]
  have hcomment : isBlankOrComment last' = isBlankOrComment last := by
    rw [isBlankOrComment, htrim, isBlankOrComment]
  rw [Line.endsBody, hcomment, Line.endsBody]
  cases hblank : isBlankLine last with
  | true => simp [isBlankOrComment_of_blank hblank]
  | false =>
    have hblank' : isBlankLine last' = false := by
      rw [← Text.isBlankLine_trimEnd, h, Text.isBlankLine_trimEnd, hblank]
    rw [← Text.indentWidth_trimEnd hblank', h, Text.indentWidth_trimEnd hblank]

/-! ## The lines of a body -/

/-- The lines behind a signature that is indented so deep, up to the first logical line that ends
the body. -/
def bodyLines (indent : Nat) (lines : List (List Char)) : List (List Char) :=
  ((logicalLines lines).takeWhile (!·.endsBody indent)).map (·.text)

/-- The body that lines are, if any of them is not blank: without the blank ones at the end, and
without their margin. -/
def ofBodyLines? (lines : List (List Char)) : Option (List Char) :=
  match dropBlankEnd lines with
  | [] => none
  | lines => some (Text.dedent lines)

/-- A body is that of its lines: `body?` finds `bodyLines` and makes the body of them in one go. -/
theorem body?_eq (indent : Nat) (lines : List (List Char)) :
    body? indent lines = ofBodyLines? (bodyLines indent lines) := rfl

/-- Blank lines at the end are dropped by `dropBlankEnd`, however many there are. -/
theorem dropBlankEnd_append (h : ∀ line ∈ extra, isBlankLine line = true) (ls : List (List Char)) :
    dropBlankEnd (ls ++ extra) = dropBlankEnd ls := by
  have hreverse : ∀ line ∈ extra.reverse, isBlankLine line = true := fun line hl =>
    h line (List.mem_reverse.1 hl)
  rw [dropBlankEnd, List.reverse_append, List.dropWhile_append_of_pos hreverse, dropBlankEnd]

/-- No lines are left by `dropBlankEnd` exactly if all are blank. -/
theorem dropBlankEnd_eq_nil_iff : dropBlankEnd ls = [] ↔ ∀ line ∈ ls, isBlankLine line = true := by
  rw [dropBlankEnd, List.reverse_eq_nil_iff, List.dropWhile_eq_nil_iff]
  exact forall_congr' fun line => by rw [List.mem_reverse]

/-- Lines are no body exactly if all of them are blank. -/
theorem ofBodyLines?_eq_none_iff :
    ofBodyLines? ls = none ↔ ∀ line ∈ ls, isBlankLine line = true := by
  rw [← dropBlankEnd_eq_nil_iff, ofBodyLines?]
  cases dropBlankEnd ls with
  | nil => exact iff_of_true rfl rfl
  | cons line ls => exact iff_of_false nofun nofun

/-- A change `f` of lines that neither makes lines blank nor shows in lines without their margin
does not show in a body. -/
theorem ofBodyLines?_map {f : List Char → List Char}
    (hblank : ∀ line, isBlankLine (f line) = isBlankLine line)
    (hdedent : ∀ ls, Text.dedent (ls.map f) = Text.dedent ls) (ls : List (List Char)) :
    ofBodyLines? (ls.map f) = ofBodyLines? ls := by
  have hdrop : dropBlankEnd (ls.map f) = (dropBlankEnd ls).map f := by
    rw [dropBlankEnd, dropBlankEnd, ← List.map_reverse, List.dropWhile_map, List.map_reverse]
    congr 3
    funext line
    exact hblank line
  rw [ofBodyLines?, hdrop, ofBodyLines?]
  cases dropBlankEnd ls with
  | nil => rfl
  | cons line ls =>
    rw [List.map_cons]
    dsimp only
    rw [← List.map_cons, hdedent]

/-- Blanks at the end of lines are dropped from the body, as `dedent` drops them. -/
theorem ofBodyLines?_map_trimEnd (ls : List (List Char)) :
    ofBodyLines? (ls.map trimEnd) = ofBodyLines? ls :=
  ofBodyLines?_map Text.isBlankLine_trimEnd Text.dedent_map_trimEnd ls

/-- Of lines that start outside a body (`StartsOutside`) only blank ones are taken. -/
theorem isBlankLine_of_startsOutside (h : StartsOutside indent more) :
    ∀ l ∈ (markLines .start true more).takeWhile (!·.endsBody indent),
      isBlankLine l.text = true := by
  induction more with
  | nil => exact List.forall_mem_nil _
  | cons line more ih =>
    cases hblank : isBlankLine line with
    | true =>
      have hmore : StartsOutside indent more := fun l hl =>
        h l (by rwa [List.find?_cons_of_neg (by simp [hblank])])
      rw [markLines_of_endsLine quoted_start (endsLine_blank hblank), List.takeWhile_cons]
      split
      · exact List.forall_mem_cons.2 ⟨hblank, ih hmore⟩
      · exact List.forall_mem_nil _
    | false =>
      obtain ⟨hcomment, hindent⟩ := h line (List.find?_cons_of_pos (by simp [hblank]))
      have hends : Line.endsBody indent ⟨true, line⟩ = true := by
        rw [Line.endsBody, hcomment, decide_eq_true hindent]
        rfl
      rw [markLines, List.takeWhile_cons_of_neg (by simp [hends])]
      exact List.forall_mem_nil _

/-- Lines behind a line prolong a body, if it goes on there; carriage returns and other blanks at
the end of the line make no difference. Behind a line that ends a logical one (`EndsLine`), lines
that start outside the body add only blank ones. -/
theorem exists_bodyLines_append (h : trimEnd last' = trimEnd last) (indent : Nat)
    (ls more : List (List Char)) :
    ∃ extra, (bodyLines indent (ls ++ last' :: more)).map trimEnd
        = (bodyLines indent (ls ++ [last]) ++ extra).map trimEnd
      ∧ (EndsLine (ScanState.start.run (ended ls)) last' → StartsOutside indent more →
        ∀ line ∈ extra, isBlankLine line = true) := by
  obtain ⟨starts, hmarks⟩ := exists_markLines_append .start true ls
  rw [bodyLines, bodyLines, logicalLines, logicalLines, hmarks, hmarks, List.takeWhile_append,
    List.takeWhile_append]
  split
  swap
  · -- The body ends before the last line.
    exact ⟨[], by rw [List.append_nil], fun _ _ => List.forall_mem_nil _⟩
  have hfirst : Line.endsBody indent ⟨starts, last'⟩ = Line.endsBody indent ⟨starts, last⟩ :=
    endsBody_congr h
  cases hends : Line.endsBody indent ⟨starts, last⟩ with
  | true =>
    rw [markLines, markLines, List.takeWhile_cons_of_neg (by simp [hfirst, hends]),
      List.takeWhile_cons_of_neg (by simp [hends]), List.append_nil]
    exact ⟨[], by rw [List.append_nil], fun _ _ => List.forall_mem_nil _⟩
  | false =>
    let s := ScanState.start.run (ended ls)
    let behind := markLines ((s.run last').next '\n')
      ((s.run last').isTop '\n' && last'.getLast? != some '\\') more
    -- The last line belongs to the body, and so do those behind it up to the first that ends it.
    refine ⟨(behind.takeWhile (!·.endsBody indent)).map (·.text), ?_, fun hlast hmore => ?_⟩
    · rw [markLines, markLines, List.takeWhile_cons_of_pos (by simp [hfirst, hends]),
        List.takeWhile_cons_of_pos (by simp [hends]), markLines, List.takeWhile_nil]
      simp only [List.map_append, List.map_cons, List.map_nil, h, List.append_assoc,
        List.singleton_append]
      rfl
    · have hbehind : behind = markLines .start true more :=
        (List.cons.inj (markLines_of_endsLine (quoted_start.run _) hlast starts more)).2
      rw [hbehind]
      exact List.forall_mem_map.2 (isBlankLine_of_startsOutside hmore)

/-- **Lines behind a body prolong it at most**: there still is a body, whatever they are. -/
theorem exists_body?_append {body : List Char} (h : trimEnd last' = trimEnd last)
    (hbody : body? indent (ls ++ [last]) = some body) (more : List (List Char)) :
    ∃ body', body? indent (ls ++ last' :: more) = some body' := by
  obtain ⟨extra, hlines, -⟩ := exists_bodyLines_append h indent ls more
  rw [body?_eq, ← ofBodyLines?_map_trimEnd, hlines, ofBodyLines?_map_trimEnd,
    ← Option.ne_none_iff_exists', Ne, ofBodyLines?_eq_none_iff]
  intro hblank
  have hnone : body? indent (ls ++ [last]) = none :=
    ofBodyLines?_eq_none_iff.2 fun line hl => hblank line (List.mem_append_left extra hl)
  rw [hbody] at hnone
  cases hnone

/-- **Lines outside a body leave it as it is** (`StartsOutside`), if a logical line may start behind
it (`EndsLine`). -/
theorem body?_append (h : trimEnd last' = trimEnd last)
    (hlast : EndsLine (ScanState.start.run (ended ls)) last') (hmore : StartsOutside indent more) :
    body? indent (ls ++ last' :: more) = body? indent (ls ++ [last]) := by
  obtain ⟨extra, hlines, hextra⟩ := exists_bodyLines_append h indent ls more
  rw [body?_eq, ← ofBodyLines?_map_trimEnd, hlines, ofBodyLines?_map_trimEnd, ofBodyLines?,
    dropBlankEnd_append (hextra hlast hmore)]
  rfl

/-! ## Blocks -/

/-- The texts of logical lines are the lines: `markLines` only says which of them start one. -/
theorem map_text_markLines (s : ScanState) (starts : Bool) (ls : List (List Char)) :
    (markLines s starts ls).map (·.text) = ls := by
  induction ls generalizing s starts with
  | nil => rfl
  | cons line ls ih => rw [markLines, List.map_cons, ih]

/-- Lines none of which ends the body are all in it, so `bodyLines` takes them all. -/
theorem bodyLines_of_inside (h : ∀ l ∈ logicalLines ls, l.endsBody indent = false) :
    bodyLines indent ls = ls := by
  have hall : (logicalLines ls).takeWhile (!·.endsBody indent) = logicalLines ls :=
    List.takeWhile_eq_self_iff.2 fun l hl => by simp [h l hl]
  rw [bodyLines, hall, logicalLines, map_text_markLines]

/-- No line is dropped behind one that is not blank, so `dropBlankEnd` leaves lines that end with
one. -/
theorem dropBlankEnd_concat (h : isBlankLine last = false) (ls : List (List Char)) :
    dropBlankEnd (ls ++ [last]) = ls ++ [last] := by
  rw [dropBlankEnd, List.reverse_append, List.reverse_singleton, List.singleton_append,
    List.dropWhile_cons_of_neg (by simp [h]), ← List.singleton_append, List.reverse_append,
    List.reverse_reverse, List.reverse_singleton]

/-- **Lines none of which ends the body are the body** (`endsBody`), without their margin, if the
last one is not blank. -/
theorem body?_of_inside (h : ∀ l ∈ logicalLines (ls ++ [last]), l.endsBody indent = false)
    (hlast : isBlankLine last = false) :
    body? indent (ls ++ [last]) = some (Text.dedent (ls ++ [last])) := by
  rw [body?_eq, bodyLines_of_inside h, ofBodyLines?, dropBlankEnd_concat hlast]
  split
  · next hnil => exact absurd hnil (List.concat_ne_nil last ls)
  · rfl

/-- No line of a block that is indented deeper than a definition ends the body behind it: its lines
are blank or start in column `base` at least. -/
theorem endsBody_block {block : List BlockLine} {base : Nat} (h : ∀ l ∈ block, l.WellFormed)
    (hbase : indent < base) :
    ∀ l ∈ logicalLines (block.map (BlockLine.line base)), l.endsBody indent = false := by
  rintro ⟨starts, line⟩ hl
  have hline : line ∈ (logicalLines (block.map (BlockLine.line base))).map (·.text) :=
    List.mem_map.2 ⟨_, hl, rfl⟩
  rw [logicalLines, map_text_markLines] at hline
  obtain ⟨l, hmem, rfl⟩ := List.mem_map.1 hline
  cases l with
  | blank w =>
    have hblank : isBlankOrComment ((BlockLine.blank w).line base) = true :=
      isBlankOrComment_of_blank (h _ hmem).1
    simp [Line.endsBody, hblank]
  | text extra s =>
    have hwidth : indentWidth ((BlockLine.text extra s).line base) = base + extra := by
      rw [indentWidth, BlockLine.line, BlockLine.leadingBlank_replicate (h _ hmem).2.1,
        List.length_replicate]
    rw [Line.endsBody, hwidth, decide_eq_false (by omega), Bool.and_false]

/-- **A block of lines is a body**, if it ends with a text and is indented deeper than the
definition. -/
theorem body?_block {block : List BlockLine} {extra : Nat} {s : List Char} {base : Nat}
    (h : ∀ l ∈ block ++ [BlockLine.text extra s], l.WellFormed) (hbase : indent < base) :
    body? indent ((block ++ [BlockLine.text extra s]).map (BlockLine.line base))
      = some (ended ((block ++ [BlockLine.text extra s]).map
          (BlockLine.shown (BlockLine.least (block ++ [BlockLine.text extra s]))))) := by
  have hlast : (BlockLine.text extra s).WellFormed := h _ (by simp)
  have hblank : isBlankLine ((BlockLine.text extra s).line base) = false :=
    BlockLine.isBlankLine_replicate hlast.1 hlast.2.1 _
  have hinside := endsBody_block h hbase
  have hdedent := BlockLine.dedent_block h base
  rw [List.map_append, List.map_singleton] at hinside hdedent ⊢
  rw [body?_of_inside hinside hblank, hdedent, List.map_append, List.map_singleton]

end WorkflowTemplates.Source
