import WorkflowTemplates.Proofs.Source.LineEnd

/-!
# Texts cut at separators

A text is cut at a separator that stands outside brackets, strings and comments, and behind the cut
the scan starts anew (`Cut`). So every piece is scanned on its own as it is in the text, also if
brackets are not balanced and strings not closed, and the pieces are determined by what they are
scanned as (`splitFrom_eq_iff`). They are the text with its separators taken out
(`Cut.intercalate_eq`), one more than there are separators (`Cut.length_eq`), and none of them is
cut again (`splitTop_lossless`).
-/

namespace WorkflowTemplates.Source

open ScanState (Visits isPlain)

variable {sep c : Char} {s : ScanState} {text : List Char} {pieces : List (List Char)}

/-! ## Counting separators -/

/-- A character is no separator outside brackets, strings and comments (`isTop`) exactly if it
satisfies the condition on code characters that `Visits` asks for. -/
theorem not_isTop_iff :
    ¬(s.isTop c && c == sep) = true ↔ (s.isCode c = true → s.depth = 0 → c ≠ sep) := by
  rw [ScanState.isTop, Bool.and_eq_true, Bool.and_eq_true, beq_iff_eq, beq_iff_eq]
  constructor
  · intro h hcode hdepth hc
    exact h ⟨⟨hdepth, hcode⟩, hc⟩
  · rintro h ⟨⟨hdepth, hcode⟩, hc⟩
    exact h hcode hdepth hc

/-- A text has no separators (`countTop`) exactly if a scan meets none outside brackets. -/
theorem countTop_eq_zero_iff :
    countTop sep s text = 0 ↔ Visits (fun d c => d = 0 → c ≠ sep) s text := by
  induction text generalizing s with
  | nil => exact ⟨fun _ => trivial, fun _ => rfl⟩
  | cons c text ih =>
    rw [countTop, Nat.add_eq_zero_iff, ih, Visits, ← not_isTop_iff]
    split <;> simp [*]

/-- The separators of a text are those of its two parts, the second one scanned from where the first
one leaves the scanner. -/
theorem countTop_append (a b : List Char) :
    countTop sep s (a ++ b) = countTop sep s a + countTop sep (s.run a) b := by
  induction a generalizing s with
  | nil => exact (Nat.zero_add _).symm
  | cons c a ih => rw [List.cons_append, countTop, countTop, ih, ScanState.run_cons, Nat.add_assoc]

/-! ## Pieces of a text -/

/-- A text is cut into pieces, from a state on. No separator stands outside brackets, strings and
comments in a piece, and behind the cut after it the scan starts anew. The relation does not mention
`splitFrom`, and determines the pieces. -/
inductive Cut (sep : Char) : ScanState → List Char → List (List Char) → Prop
  | last {s : ScanState} {piece : List Char} (h : Visits (fun d c => d = 0 → c ≠ sep) s piece) :
    Cut sep s piece [piece]
  | cons {s : ScanState} {piece rest : List Char} {pieces : List (List Char)}
    (h : Visits (fun d c => d = 0 → c ≠ sep) s piece) (htop : (s.run piece).isTop sep = true)
    (hrest : Cut sep .start rest pieces) : Cut sep s (piece ++ sep :: rest) (piece :: pieces)

/-- There is always a piece, if only an empty one (`Cut`). -/
theorem Cut.ne_nil (h : Cut sep s text pieces) : pieces ≠ [] := by
  cases h <;> exact List.cons_ne_nil _ _

/-- A character that is no separator belongs to the first piece, which is the step of `splitFrom`
that cuts nothing. -/
theorem Cut.modifyHead (h : Cut sep (s.next c) text pieces)
    (hc : ¬(s.isTop c && c == sep) = true) :
    Cut sep s (c :: text) (pieces.modifyHead (c :: ·)) := by
  have hhead {piece : List Char} (h : Visits (fun d c => d = 0 → c ≠ sep) (s.next c) piece) :
      Visits (fun d c => d = 0 → c ≠ sep) s (c :: piece) := ⟨not_isTop_iff.1 hc, h⟩
  cases h with
  | last h => exact .last (hhead h)
  | cons h htop hrest => exact .cons (hhead h) htop hrest

/-- A text is cut into its pieces, by induction over the text: each step of `splitFrom` is one of
`Cut`. -/
theorem cut_splitFrom (hsep : isPlain sep = true) (hs : Quoted s) (text : List Char) :
    Cut sep s text (splitFrom sep s text) := by
  induction text generalizing s with
  | nil => exact .last trivial
  | cons c text ih =>
    rw [splitFrom]
    split
    · next hfound =>
      have hnone : Visits (fun d c => d = 0 → c ≠ sep) s [] := trivial
      rw [Bool.and_eq_true, beq_iff_eq] at hfound
      obtain ⟨htop, rfl⟩ := hfound
      have hstart := next_of_isTop hs hsep htop
      have hrest := ih (hs.next c)
      rw [hstart] at hrest ⊢
      exact .cons hnone htop hrest
    · next hfound => exact (ih (hs.next c)).modifyHead hfound

/-- A text is cut in one way only, by induction over `Cut`: what stands in a piece is passed over,
and at the separator behind it the text is cut. -/
theorem Cut.splitFrom_eq (hsep : isPlain sep = true) (hs : Quoted s) (h : Cut sep s text pieces) :
    splitFrom sep s text = pieces := by
  induction h with
  | last h => exact splitFrom_piece h
  | cons h htop hrest ih =>
    have hstart := next_of_isTop (hs.run _) hsep htop
    rw [splitFrom_append h, splitFrom, if_pos (found_of_isTop htop), hstart, ih quoted_start,
      List.modifyHead_cons, List.append_nil]

/-- **The pieces of a text are those that it can be cut into** (`Cut`), from any state that the
scanner can be in. -/
theorem splitFrom_eq_iff (hsep : isPlain sep = true) (hs : Quoted s) :
    splitFrom sep s text = pieces ↔ Cut sep s text pieces := by
  constructor
  · rintro rfl
    exact cut_splitFrom hsep hs text
  · exact Cut.splitFrom_eq hsep hs

/-- The pieces of a text with separators between them are the text, so nothing is lost or added
(`Cut`). -/
theorem Cut.intercalate_eq (h : Cut sep s text pieces) :
    List.intercalate [sep] pieces = text := by
  induction h with
  | last h => exact List.intercalate_singleton
  | cons h htop hrest ih =>
    obtain ⟨next, pieces, rfl⟩ := List.exists_cons_of_ne_nil hrest.ne_nil
    rw [List.intercalate_cons_cons, ih, List.append_assoc]
    rfl

/-- There is one piece more than there are separators outside brackets, strings and comments
(`countTop`). -/
theorem Cut.length_eq (hsep : isPlain sep = true) (hs : Quoted s) (h : Cut sep s text pieces) :
    pieces.length = countTop sep s text + 1 := by
  induction h with
  | last h => rw [countTop_eq_zero_iff.2 h, List.length_singleton]
  | cons h htop hrest ih =>
    have hstart := next_of_isTop (hs.run _) hsep htop
    rw [countTop_append, countTop_eq_zero_iff.2 h, countTop, if_pos (found_of_isTop htop), hstart,
      List.length_cons, ih quoted_start]
    omega

/-- No separator stands outside brackets, strings and comments in a piece, so none is cut again
(`Cut`). -/
theorem Cut.visits {piece : List Char} (h : Cut sep .start text pieces) (hpiece : piece ∈ pieces) :
    Visits (fun d c => d = 0 → c ≠ sep) .start piece := by
  generalize hs : ScanState.start = s at h
  induction h with
  | last h =>
    subst hs
    rwa [List.mem_singleton.1 hpiece]
  | cons h htop hrest ih =>
    subst hs
    rcases List.mem_cons.1 hpiece with rfl | hpiece
    · exact h
    · exact ih hpiece rfl

/-- **Nothing is lost between the pieces of a text.** With the separators between them they are the
text, there is one more than the text has separators outside brackets, strings and comments
(`countTop`), and none of them has such a separator, so that it is its own only piece. No bracket
needs to be closed for that, and no string. -/
theorem splitTop_lossless (hsep : sep = ',' ∨ sep = '|') (text : List Char) :
    List.intercalate [sep] (splitTop sep text) = text
      ∧ (splitTop sep text).length = countTop sep .start text + 1
      ∧ ∀ piece ∈ splitTop sep text,
        splitTop sep piece = [piece] ∧ countTop sep .start piece = 0 := by
  have hplain : isPlain sep = true := by
    rcases hsep with rfl | rfl <;> rfl
  have hpieces {text : List Char} {pieces : List (List Char)} :
      splitTop sep text = pieces ↔ Cut sep .start text pieces :=
    splitFrom_eq_iff hplain quoted_start
  have hcut : Cut sep .start text (splitTop sep text) := hpieces.1 rfl
  refine ⟨hcut.intercalate_eq, hcut.length_eq hplain quoted_start, fun piece hpiece => ?_⟩
  have hvisits := hcut.visits hpiece
  exact ⟨hpieces.2 (.last hvisits), countTop_eq_zero_iff.2 hvisits⟩

/-- A text with a bracket that closes none and one that stays open, an empty string before a cut, a
string that its line ends, commas in a comment, and a long string that stays open. -/
def brokenText : List Char :=
  "x],'','c, d\n,(# a, b\n\"\"\"e, f".toList

/-- The text is cut at three of its commas, at which neither brackets nor strings nor comments are
open. -/
theorem brokenText_cut :
    splitTop ',' brokenText
        = ["x]".toList, "''".toList, "'c, d\n".toList, "(# a, b\n\"\"\"e, f".toList]
      ∧ countTop ',' .start brokenText = 3
      ∧ List.intercalate [','] (splitTop ',' brokenText) = brokenText
      ∧ ∀ piece ∈ splitTop ',' brokenText, splitTop ',' piece = [piece] := by
  obtain ⟨hjoin, hlength, hpieces⟩ := splitTop_lossless (.inl rfl) brokenText
  have hsplit : splitTop ',' brokenText
      = ["x]".toList, "''".toList, "'c, d\n".toList, "(# a, b\n\"\"\"e, f".toList] := by
    decide +kernel
  refine ⟨hsplit, ?_, hjoin, fun piece hpiece => (hpieces piece hpiece).1⟩
  rw [hsplit] at hlength
  exact (Nat.succ.inj hlength).symm

end WorkflowTemplates.Source
