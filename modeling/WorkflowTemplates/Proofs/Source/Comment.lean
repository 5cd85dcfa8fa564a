import WorkflowTemplates.Proofs.Source.LineEnd
import WorkflowTemplates.Proofs.Source.Signature

/-!
# Comments at line ends

A comment at the end of a line, with the blanks before it (`IsComment`), is met only if the scanner
is in no string there (`isOutside`). Then no code but blanks is in it, and behind the line feed the
scan goes on as without the comment. So whatever is looked for is found in the same place with and
without it: a place in code (`exists_breakAt`), the end of a head (`exists_breakHead`) and of the
part before a default (`exists_breakDefault`), and the pieces between separators
(`exists_splitTop`). The comment stays in the text that is found, where the line feed is.
-/

namespace WorkflowTemplates

open Source (ScanState breakAt isQuote splitFrom)
open Text (isBlank isBlankLine)

namespace Source

/-- A comment, and blanks before it, up to the end of the line but not with it. -/
structure IsComment (comment : List Char) : Prop where
  newline : '\n' ∉ comment
  exists_text : ∃ gap text, isBlankLine gap = true ∧ comment = gap ++ '#' :: text

namespace IsComment

variable {comment : List Char}

/-- What stands before a comment is not trimmed with it: the number sign is no blank (`IsComment`).
-/
theorem trimEnd_append (h : IsComment comment) (a : List Char) :
    Text.trimEnd (a ++ comment) = a ++ Text.trimEnd comment := by
  obtain ⟨-, gap, text, -, rfl⟩ := h
  rw [← List.append_assoc, Text.trimEnd_append_cons rfl, Text.trimEnd_append_cons rfl,
    List.append_assoc]

/-- Blanks at the end of a comment are part of it, and it is a comment (`IsComment`) without them.
-/
theorem trimEnd (h : IsComment comment) : IsComment (Text.trimEnd comment) where
  newline hmem := h.newline (Text.trimEnd_subset comment hmem)
  exists_text := by
    obtain ⟨-, gap, text, hgap, rfl⟩ := h
    exact ⟨gap, _, hgap, Text.trimEnd_append_cons rfl gap text⟩

/-- What starts with a comment does not start with an equals sign, so a comment does not tell an
assignment from a comparison (`IsComment`). -/
theorem head?_append_ne (h : IsComment comment) (x : List Char) :
    (comment ++ x).head? ≠ some '=' := by
  obtain ⟨-, gap, text, hgap, rfl⟩ := h
  cases gap with
  | nil => nofun
  | cons c gap =>
    rw [isBlankLine, List.all_cons, Bool.and_eq_true] at hgap
    exact fun hhead => Text.ne_of_kind (d := '=') hgap.1 rfl (Option.some.inj hhead)

end IsComment

namespace ScanState

variable {s : ScanState} {comment : List Char} {c : Char}

/-- The scanner is in no string: it is in code, in a comment, or behind two quotes that may still
become three. -/
def isOutside (s : ScanState) : Bool :=
  match s.mode with
  | .code | .comment | .openingTwo _ => true
  | _ => false

/-- Between tokens (`Rests`) the scanner is in no string. -/
theorem Rests.isOutside {d : Nat} (h : s.Rests d) : s.isOutside = true := by
  obtain ⟨depth, mode⟩ := s
  obtain ⟨-, rfl | ⟨quote, -, rfl⟩⟩ := h <;> rfl

/-- No line feed is a quote, so a line feed closes no string by being its quote. -/
theorem newline_ne_of_isQuote {quote : Char} (h : isQuote quote = true) : '\n' ≠ quote := by
  rintro rfl
  cases h

/-- Outside strings code goes on behind a line feed, with the same brackets open (`Quoted`). -/
theorem next_newline (hs : Quoted s) (hout : s.isOutside = true) :
    s.next '\n' = ⟨s.depth, .code⟩ := by
  obtain ⟨depth, mode⟩ := s
  cases mode with
  | code | comment => rfl
  | openingTwo quote => exact if_neg (newline_ne_of_isQuote hs)
  | opening | short | shortEscape | long | longEscape => cases hout

/-- Outside strings a number sign starts a comment, and is no code itself (`Quoted`). -/
theorem next_numberSign (hs : Quoted s) (hout : s.isOutside = true) :
    s.next '#' = ⟨s.depth, .comment⟩ ∧ s.isCode '#' = false := by
  obtain ⟨depth, mode⟩ := s
  cases mode with
  | code | comment => exact ⟨rfl, rfl⟩
  | openingTwo quote =>
    have hne : '#' ≠ quote := by
      rintro rfl
      cases hs
    exact ⟨if_neg hne, rfl⟩
  | opening | short | shortEscape | long | longEscape => cases hout

/-- No character of a comment is code, so no property of code is asked of it (`fun _ _ => False`).
-/
theorem visits_in_comment (h : '\n' ∉ comment) (d : Nat) :
    Visits (fun _ _ => False) ⟨d, .comment⟩ comment := by
  induction comment with
  | nil => trivial
  | cons c comment ih =>
    rw [List.mem_cons, not_or] at h
    have hnext : next ⟨d, .comment⟩ c = ⟨d, .comment⟩ := if_neg (Ne.symm h.1)
    refine ⟨fun hcode => absurd (beq_iff_eq.1 hcode) (Ne.symm h.1), ?_⟩
    rw [hnext]
    exact ih h.2

/-- Behind a blank the scanner is in no string if it was in none before, with the same brackets open
(`Quoted`). -/
theorem isOutside_next_blank (hs : Quoted s) (hout : s.isOutside = true) (hc : isBlank c = true) :
    (s.next c).isOutside = true ∧ (s.next c).depth = s.depth := by
  have hcode (d : Nat) : nextInCode d c = ⟨d, .code⟩ := nextInCode_plain (isPlain_of_isBlank hc) d
  obtain ⟨depth, mode⟩ := s
  unfold next
  cases mode with
  | code =>
    dsimp only
    rw [hcode]
    exact ⟨rfl, rfl⟩
  | comment =>
    dsimp only
    split <;> exact ⟨rfl, rfl⟩
  | openingTwo quote =>
    have hne : c ≠ quote := by
      rintro rfl
      exact Bool.false_ne_true ((isQuote_of_isPlain (isPlain_of_isBlank hc)).symm.trans hs)
    dsimp only
    rw [if_neg hne, hcode]
    exact ⟨rfl, rfl⟩
  | opening | short | shortEscape | long | longEscape => cases hout

/-- A comment that starts outside strings has no code but the blanks before it, and behind it the
scanner is in the comment (`IsComment`). -/
theorem visits_comment (hs : Quoted s) (hout : s.isOutside = true) (h : IsComment comment) :
    Visits (fun _ c => isBlank c = true) s comment ∧ s.run comment = ⟨s.depth, .comment⟩ := by
  obtain ⟨hbreak, gap, text, hgap, rfl⟩ := h
  induction gap generalizing s with
  | nil =>
    have htext : '\n' ∉ text := fun hmem => hbreak (List.mem_cons_of_mem _ hmem)
    obtain ⟨hnext, hcode⟩ := next_numberSign hs hout
    refine ⟨⟨fun h => absurd (hcode.symm.trans h) Bool.false_ne_true, ?_⟩, ?_⟩
    · rw [hnext]
      exact (visits_in_comment htext _).mono fun _ _ => False.elim
    · rw [List.nil_append, run_cons, hnext, run_comment htext]
  | cons c gap ih =>
    rw [isBlankLine, List.all_cons, Bool.and_eq_true] at hgap
    obtain ⟨hout', hdepth⟩ := isOutside_next_blank hs hout hgap.1
    have hrest : '\n' ∉ gap ++ '#' :: text := fun hmem => hbreak (List.mem_cons_of_mem _ hmem)
    obtain ⟨hvisits, hrun⟩ := ih (hs.next c) hout' hgap.2 hrest
    refine ⟨⟨fun _ => hgap.1, hvisits⟩, ?_⟩
    rw [List.cons_append, run_cons, hrun, hdepth]

/-- The mode behind a character does not depend on the brackets that are open, which `next` only
counts. -/
theorem mode_next (d d' : Nat) (m : Mode) (c : Char) :
    (next ⟨d, m⟩ c).mode = (next ⟨d', m⟩ c).mode := by
  have hcode : (nextInCode d c).mode = (nextInCode d' c).mode := by
    unfold nextInCode
    split
    · rfl
    split
    · rfl
    split
    · rfl
    split <;> rfl
  cases m with
  | code => exact hcode
  | comment =>
    unfold next
    dsimp only
    split <;> rfl
  | openingTwo quote =>
    unfold next
    dsimp only
    split
    · rfl
    · exact hcode
  | opening | short | shortEscape | long | longEscape => rfl

/-- The mode behind a text does not depend on the brackets that are open, by induction over the
text. -/
theorem mode_run (d d' : Nat) (m : Mode) (text : List Char) :
    (run ⟨d, m⟩ text).mode = (run ⟨d', m⟩ text).mode := by
  induction text generalizing d d' m with
  | nil => rfl
  | cons c text ih =>
    have hmode := mode_next d d' m c
    rw [run_cons, run_cons]
    generalize next ⟨d, m⟩ c = s at hmode ⊢
    generalize next ⟨d', m⟩ c = s' at hmode ⊢
    obtain ⟨e, m'⟩ := s
    obtain ⟨e', m''⟩ := s'
    cases (hmode : m' = m'')
    exact ih e e' m'

/-- Whether a scan ends in a string (`isOutside`) does not depend on the brackets that are open. -/
theorem isOutside_run (d d' : Nat) (m : Mode) (text : List Char) :
    (run ⟨d, m⟩ text).isOutside = (run ⟨d', m⟩ text).isOutside := by
  rw [isOutside, mode_run d d', isOutside]

end ScanState

/-! ## Places in code -/

variable {test : Nat → Char → Bool} {sep : Char} {s : ScanState} {a comment rest : List Char}

/-- A place that is not in a text is looked for behind it, from the state in which the text leaves
the scanner. -/
theorem breakAt_append_of_none (h : breakAt test s a = none) (b : List Char) :
    breakAt test s (a ++ b)
      = (breakAt test (s.run a) b).map fun (before, behind) => (a ++ before, behind) := by
  refine breakAt_append ?_ b
  induction a generalizing s with
  | nil => trivial
  | cons c a ih =>
    rw [breakAt] at h
    split at h
    · cases h
    · next htest =>
      refine ⟨fun hcode => ?_, ih (Option.map_eq_none_iff.1 h)⟩
      simpa [hcode] using htest

/-- A place is found in a text whatever stands behind it: `breakAt` stops at the first one. -/
theorem breakAt_eq_some {before behind : List Char} (h : breakAt test s a = some (before, behind)) :
    ∃ c, a = before ++ c :: behind
      ∧ ∀ other, breakAt test s (before ++ c :: other) = some (before, other) := by
  induction a generalizing s before with
  | nil => cases h
  | cons c a ih =>
    rw [breakAt] at h
    split at h
    · next htest =>
      cases h
      exact ⟨c, rfl, fun other => if_pos htest⟩
    · next htest =>
      obtain ⟨⟨before', behind'⟩, hrest, heq⟩ := Option.map_eq_some_iff.1 h
      cases heq
      obtain ⟨d, rfl, hother⟩ := ih hrest
      refine ⟨d, rfl, fun other => ?_⟩
      rw [List.cons_append, breakAt, if_neg htest, hother]
      rfl

/-- Outside strings no place that is looked for is a line feed (`htest`), and it is looked for
behind it. -/
theorem breakAt_newline (hs : Quoted s) (hout : s.isOutside = true)
    (htest : test s.depth '\n' = false) (rest : List Char) :
    breakAt test s ('\n' :: rest)
      = (breakAt test ⟨s.depth, .code⟩ rest).map fun (before, behind) =>
          ('\n' :: before, behind) := by
  rw [breakAt, htest, Bool.and_false, if_neg Bool.false_ne_true, ScanState.next_newline hs hout]

/-- A place behind a line is found in the same way with and without a comment at its end, and the
comment stays in what is before the place (`IsComment`). -/
theorem exists_breakAt (hs : Quoted s) (hnone : breakAt test s a = none)
    (hout : (s.run a).isOutside = true) (htest : ∀ d c, isBlank c = true → test d c = false)
    (hc : IsComment comment) (rest : List Char) :
    ∃ found, breakAt test s (a ++ '\n' :: rest)
        = Option.map (fun (before, behind) => (a ++ '\n' :: before, behind)) found
      ∧ breakAt test s (a ++ (comment ++ '\n' :: rest))
        = found.map fun (before, behind) => (a ++ (comment ++ '\n' :: before), behind) := by
  have hquoted := hs.run a
  obtain ⟨hvisits, hrun⟩ := ScanState.visits_comment hquoted hout hc
  have hcomment : Quoted ⟨(s.run a).depth, .comment⟩ := trivial
  refine ⟨breakAt test ⟨(s.run a).depth, .code⟩ rest, ?_, ?_⟩
  · rw [breakAt_append_of_none hnone, breakAt_newline hquoted hout (htest _ _ rfl), Option.map_map]
    rfl
  · rw [breakAt_append_of_none hnone, breakAt_append (hvisits.mono htest), hrun,
      breakAt_newline hcomment rfl (htest _ _ rfl), Option.map_map, Option.map_map]
    rfl

/-! ## Pieces -/

/-- There is always a piece, if only an empty one. -/
theorem splitFrom_ne_nil (sep : Char) (s : ScanState) (text : List Char) :
    splitFrom sep s text ≠ [] := by
  induction text generalizing s with
  | nil => exact List.cons_ne_nil _ _
  | cons c text ih =>
    rw [splitFrom]
    split
    · exact List.cons_ne_nil _ _
    · intro hnil
      exact ih _ (List.modifyHead_eq_nil_iff.1 hnil)

/-- The pieces of two texts are those of the first one, the last of which goes on with the first of
the second one. That last piece is the whole first text, or the scan starts anew before it, because
a separator is only cut at outside brackets. -/
theorem exists_splitFrom_append (hsep : ScanState.isPlain sep = true) (hs : Quoted s)
    (a : List Char) :
    ∃ init last, splitFrom sep s a = init ++ [last]
      ∧ (init = [] ∧ last = a ∨ init ≠ [] ∧ ScanState.start.run last = s.run a)
      ∧ ∀ b, splitFrom sep s (a ++ b)
        = init ++ (splitFrom sep (s.run a) b).modifyHead (last ++ ·) := by
  induction a generalizing s with
  | nil =>
    refine ⟨[], [], rfl, .inl ⟨rfl, rfl⟩, fun b => ?_⟩
    cases hb : splitFrom sep s b <;> simp [hb]
  | cons c a ih =>
    obtain ⟨init, last, hsplit, hlast, happend⟩ := ih (hs.next c)
    by_cases hfound : (s.isTop c && c == sep) = true
    · obtain ⟨htop, rfl⟩ : s.isTop c = true ∧ c = sep := by
        rwa [Bool.and_eq_true, beq_iff_eq] at hfound
      have hstart := next_of_isTop hs hsep htop
      refine ⟨[] :: init, last, ?_, .inr ⟨List.cons_ne_nil _ _, ?_⟩, fun b => ?_⟩
      · rw [splitFrom, if_pos hfound, hsplit, List.cons_append]
      · rw [hstart] at hlast
        rw [ScanState.run_cons, hstart]
        rcases hlast with ⟨-, rfl⟩ | ⟨-, hlast⟩
        · rfl
        · exact hlast
      · rw [List.cons_append, splitFrom, if_pos hfound, happend, List.cons_append,
          ScanState.run_cons]
    -- The character belongs to the first piece, which may be the last one as well.
    · rcases hlast with ⟨rfl, rfl⟩ | ⟨hne, hlast⟩
      · refine ⟨[], c :: last, ?_, .inl ⟨rfl, rfl⟩, fun b => ?_⟩
        · rw [splitFrom, if_neg hfound, hsplit]
          rfl
        · rw [List.cons_append, splitFrom, if_neg hfound, happend, List.nil_append,
            List.modifyHead_modifyHead, ScanState.run_cons]
          rfl
      · obtain ⟨first, init, rfl⟩ := List.exists_cons_of_ne_nil hne
        refine ⟨(c :: first) :: init, last, ?_, .inr ⟨List.cons_ne_nil _ _, hlast⟩, fun b => ?_⟩
        · rw [splitFrom, if_neg hfound, hsplit]
          rfl
        · rw [List.cons_append, splitFrom, if_neg hfound, happend, ScanState.run_cons]
          rfl

/-- Behind a line feed a piece goes on, if the separator is no line feed itself. -/
theorem splitFrom_newline (hs : Quoted s) (hout : s.isOutside = true) (hsep : sep ≠ '\n')
    (rest : List Char) :
    splitFrom sep s ('\n' :: rest)
      = (splitFrom sep ⟨s.depth, .code⟩ rest).modifyHead ('\n' :: ·) := by
  have hnone : ¬(s.isTop '\n' && '\n' == sep) = true := by
    rw [Bool.and_eq_true, beq_iff_eq]
    exact fun h => hsep h.2.symm
  rw [splitFrom, if_neg hnone, ScanState.next_newline hs hout]

/-- The pieces of a text are the same with and without a comment at the end of a line, but for the
piece in which the line ends, which keeps the comment (`IsComment`). -/
theorem exists_splitTop (hsep : ScanState.isPlain sep = true) (hblank : isBlank sep = false)
    (hout : (ScanState.start.run a).isOutside = true) (hc : IsComment comment)
    (rest : List Char) :
    ∃ init last piece more, splitTop sep a = init ++ [last]
      ∧ ScanState.start.run last = ScanState.start.run a
      ∧ splitTop sep (a ++ '\n' :: rest) = init ++ (last ++ '\n' :: piece) :: more
      ∧ splitTop sep (a ++ (comment ++ '\n' :: rest))
        = init ++ (last ++ (comment ++ '\n' :: piece)) :: more := by
  obtain ⟨init, last, hsplit, hlast, happend⟩ := exists_splitFrom_append hsep quoted_start a
  have hquoted := quoted_start.run a
  obtain ⟨hvisits, hrun⟩ := ScanState.visits_comment hquoted hout hc
  have hcomment : Quoted ⟨(ScanState.start.run a).depth, .comment⟩ := trivial
  have hne {c : Char} (hc : isBlank c = true) : c ≠ sep := Text.ne_of_kind hc hblank
  have hbreak : sep ≠ '\n' := (hne rfl).symm
  obtain ⟨piece, more, hmore⟩ := List.exists_cons_of_ne_nil
    (splitFrom_ne_nil sep ⟨(ScanState.start.run a).depth, .code⟩ rest)
  refine ⟨init, last, piece, more, hsplit, ?_, ?_, ?_⟩
  · rcases hlast with ⟨-, rfl⟩ | ⟨-, hlast⟩
    · rfl
    · exact hlast
  · rw [splitTop, happend, splitFrom_newline hquoted hout hbreak, hmore]
    rfl
  · have hnever := hvisits.mono fun d c (hc : isBlank c = true) (_ : d = 0) => hne hc
    rw [splitTop, happend, splitFrom_append hnever, hrun, splitFrom_newline hcomment rfl hbreak,
      hmore]
    rfl

end Source

namespace Signature

open Source (IsComment Quoted next_of_isTop quoted_start)

variable {s : ScanState} {seen : Bool} {before : Option Char} {a comment rest : List Char}

/-! ## Heads -/

/-- The end of a head that is not in a text is looked for behind it; `seen'` tells whether there was
a parenthesis in the text. -/
theorem exists_breakHead_append (h : breakHead seen s a = none) :
    ∃ seen', ∀ b, breakHead seen s (a ++ b)
      = (breakHead seen' (s.run a) b).map fun (head, behind) => (a ++ head, behind) := by
  induction a generalizing s seen with
  | nil => exact ⟨seen, fun b => by cases hb : breakHead seen s b <;> simp [hb]⟩
  | cons c a ih =>
    rw [breakHead] at h
    dsimp only at h
    split at h
    · cases h
    · next hcolon =>
      obtain ⟨seen', happend⟩ := ih (Option.map_eq_none_iff.1 h)
      refine ⟨seen', fun b => ?_⟩
      rw [List.cons_append, breakHead]
      dsimp only
      rw [if_neg hcolon, happend, Option.map_map, ScanState.run_cons]
      rfl

/-- Where no code but blanks is met no head ends, and no parenthesis is seen, so `seen` stays as it
was. -/
theorem breakHead_append_of_comment (h : ScanState.Visits (fun _ c => isBlank c = true) s a)
    (seen : Bool) (b : List Char) :
    breakHead seen s (a ++ b)
      = (breakHead seen (s.run a) b).map fun (head, behind) => (a ++ head, behind) := by
  induction a generalizing s with
  | nil => cases hb : breakHead seen s b <;> simp [hb]
  | cons c a ih =>
    have hcode {d : Char} (hd : isBlank d = false) : (s.isCode c && c == d) = false := by
      cases hcode : s.isCode c with
      | false => rfl
      | true => exact beq_eq_false_iff_ne.2 (Text.ne_of_kind (h.1 hcode) hd)
    rw [List.cons_append, breakHead]
    dsimp only
    rw [hcode rfl, Bool.or_false, ScanState.isTop, Bool.and_assoc, Bool.and_assoc, hcode rfl,
      Bool.and_false, Bool.and_false, if_neg Bool.false_ne_true, ih h.2, ScanState.run_cons,
      Option.map_map]
    rfl

/-- No head ends at a line feed: heads go on over line ends inside their parentheses. -/
theorem breakHead_newline (hs : Quoted s) (hout : s.isOutside = true) (seen : Bool)
    (rest : List Char) :
    breakHead seen s ('\n' :: rest)
      = (breakHead seen ⟨s.depth, .code⟩ rest).map fun (head, behind) =>
          ('\n' :: head, behind) := by
  have hseen : (seen || (s.isCode '\n' && '\n' == '(')) = seen := by simp
  rw [breakHead]
  dsimp only
  rw [hseen, if_neg (by simp), ScanState.next_newline hs hout]

/-- The end of a head behind a line is found in the same way with and without a comment at its end,
and the comment stays in the head (`IsComment`). -/
theorem exists_breakHead (hs : Quoted s) (hnone : breakHead seen s a = none)
    (hout : (s.run a).isOutside = true) (hc : IsComment comment) (rest : List Char) :
    ∃ found, breakHead seen s (a ++ '\n' :: rest)
        = Option.map (fun (head, behind) => (a ++ '\n' :: head, behind)) found
      ∧ breakHead seen s (a ++ (comment ++ '\n' :: rest))
        = found.map fun (head, behind) => (a ++ (comment ++ '\n' :: head), behind) := by
  obtain ⟨seen', happend⟩ := exists_breakHead_append hnone
  have hquoted := hs.run a
  obtain ⟨hvisits, hrun⟩ := ScanState.visits_comment hquoted hout hc
  have hcomment : Quoted ⟨(s.run a).depth, .comment⟩ := trivial
  refine ⟨breakHead seen' ⟨(s.run a).depth, .code⟩ rest, ?_, ?_⟩
  · rw [happend, breakHead_newline hquoted hout, Option.map_map]
    rfl
  · rw [happend, breakHead_append_of_comment hvisits, hrun, breakHead_newline hcomment rfl,
      Option.map_map, Option.map_map]
    rfl

/-! ## Defaults -/

/-- A default that does not start in a text is looked for behind it; the last character of the text
counts, as it may make the equals sign part of a comparison. -/
theorem breakDefault_append_of_none (h : breakDefault before s a = none) (b : List Char) :
    breakDefault before s (a ++ b)
      = (breakDefault (a.getLast?.or before) (s.run a) b).map
          fun (head, behind) => (a ++ head, behind) := by
  induction a generalizing s before with
  | nil =>
    rw [List.getLast?_nil, Option.none_or]
    cases hb : breakDefault before s b <;> simp [hb]
  | cons c a ih =>
    rw [breakDefault] at h
    dsimp only at h
    split at h
    · cases h
    next hequals =>
    have hlast : a.getLast?.or (some c) = (c :: a).getLast?.or before := by
      cases a with
      | nil => rfl
      | cons b a => rw [List.getLast?_cons_cons, List.getLast?_cons]; rfl
    -- What follows the text can only make a comparison of an equals sign at its end.
    have hequals' : ¬(s.isTop c && c == '='
        && !(before.any ['=', '!', '<', '>'].contains || (a ++ b).head? == some '=')) = true := by
      cases a with
      | nil =>
        intro htrue
        refine hequals ?_
        simp only [Bool.and_eq_true, Bool.not_eq_true', Bool.or_eq_false_iff] at htrue ⊢
        exact ⟨htrue.1, htrue.2.1, rfl⟩
      | cons d a => exact hequals
    rw [List.cons_append, breakDefault]
    dsimp only
    rw [if_neg hequals', ih (Option.map_eq_none_iff.1 h), hlast, ScanState.run_cons, Option.map_map]
    rfl

/-- A default starts at its equals sign whatever stands behind it, if that is no second equals sign.
-/
theorem breakDefault_eq_some {head behind : List Char}
    (h : breakDefault before s a = some (head, behind)) :
    a = head ++ '=' :: behind ∧ (s.run head).isTop '=' = true ∧ behind.head? ≠ some '='
      ∧ ∀ other : List Char, other.head? ≠ some '=' →
        breakDefault before s (head ++ '=' :: other) = some (head, other) := by
  induction a generalizing s before head with
  | nil => cases h
  | cons c a ih =>
    rw [breakDefault] at h
    dsimp only at h
    split at h
    · next hequals =>
      cases h
      simp only [Bool.and_eq_true, Bool.not_eq_true', Bool.or_eq_false_iff, beq_iff_eq] at hequals
      obtain ⟨⟨htop, rfl⟩, hbefore, hhead⟩ := hequals
      refine ⟨rfl, htop, beq_eq_false_iff_ne.1 hhead, fun other hother => ?_⟩
      rw [List.nil_append, breakDefault]
      dsimp only
      rw [htop, hbefore, beq_eq_false_iff_ne.2 hother]
      rfl
    · next hequals =>
      obtain ⟨⟨head', behind'⟩, hrest, heq⟩ := Option.map_eq_some_iff.1 h
      cases heq
      obtain ⟨rfl, htop, hbehind, hother⟩ := ih hrest
      refine ⟨rfl, htop, hbehind, fun other hhead => ?_⟩
      -- Only whether the next character is an equals sign counts, and that one is the same.
      have hfirst : ((head' ++ '=' :: other).head? == some '=')
          = ((head' ++ '=' :: behind').head? == some '=') := by
        cases head' <;> rfl
      rw [List.cons_append, breakDefault]
      dsimp only
      rw [hfirst, if_neg hequals, hother other hhead]
      rfl

/-- No default starts at a line feed, and a line feed in front of an equals sign makes no comparison
of it. -/
theorem breakDefault_newline (hs : Quoted s) (hout : s.isOutside = true) (rest : List Char) :
    breakDefault before s ('\n' :: rest)
      = (breakDefault (some '\n') ⟨s.depth, .code⟩ rest).map fun (head, behind) =>
          ('\n' :: head, behind) := by
  rw [breakDefault]
  dsimp only
  rw [if_neg (by simp), ScanState.next_newline hs hout]

/-- A default behind a line is found in the same way with and without a comment at its end, and the
comment stays in what is before the default (`IsComment`). -/
theorem exists_breakDefault (hs : Quoted s) (hnone : breakDefault before s a = none)
    (hout : (s.run a).isOutside = true) (hc : IsComment comment) (rest : List Char) :
    ∃ found, breakDefault before s (a ++ '\n' :: rest)
        = Option.map (fun (head, behind) => (a ++ '\n' :: head, behind)) found
      ∧ breakDefault before s (a ++ (comment ++ '\n' :: rest))
        = found.map fun (head, behind) => (a ++ (comment ++ '\n' :: head), behind) := by
  have hquoted := hs.run a
  obtain ⟨hvisits, hrun⟩ := ScanState.visits_comment hquoted hout hc
  have hcomment : Quoted ⟨(s.run a).depth, .comment⟩ := trivial
  refine ⟨breakDefault (some '\n') ⟨(s.run a).depth, .code⟩ rest, ?_, ?_⟩
  · rw [breakDefault_append_of_none hnone, breakDefault_newline hquoted hout, Option.map_map]
    rfl
  · have hnever := hvisits.mono fun d c (hc : isBlank c = true) (_ : d = 0) =>
      Text.ne_of_kind (d := '=') hc rfl
    rw [breakDefault_append_of_none hnone, breakDefault_append hnever, hrun,
      breakDefault_newline hcomment rfl, Option.map_map, Option.map_map]
    rfl

end Signature

end WorkflowTemplates
