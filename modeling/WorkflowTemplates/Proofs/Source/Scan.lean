import WorkflowTemplates.Source.Scan

/-!
# What a scan meets

A condition on code characters and the number of brackets open before them holds along a scan if it
holds of every code character that the scan meets (`Visits`). Looking for a place in code passes
over a text along which there is none (`breakAt_append`, `splitFrom_append`).

A text that starts in code and ends between two tokens at the same depth scans under a condition
(`Scans`). Such texts are put together from plain characters, and from texts between brackets.
-/

namespace WorkflowTemplates.Source

namespace ScanState

variable {p q : Nat → Char → Prop} {s : ScanState} {a b : List Char} {d : Nat} {c : Char}

/-! ## Conditions along a scan -/

/-- Every code character of a text, scanned from a state on, satisfies a condition `p` on it and on
the number of brackets that are open before it. -/
def Visits (p : Nat → Char → Prop) : ScanState → List Char → Prop
  | _, [] => True
  | s, c :: text => (s.isCode c = true → p s.depth c) ∧ Visits p (s.next c) text

/-- A text is scanned in two parts, the second one from where the first one leaves the scanner
(`Visits`). -/
theorem visits_append : Visits p s (a ++ b) ↔ Visits p s a ∧ Visits p (s.run a) b := by
  induction a generalizing s with
  | nil => exact ⟨fun h => ⟨trivial, h⟩, fun h => h.2⟩
  | cons c a ih =>
    rw [List.cons_append, run_cons, Visits, Visits, ih, and_assoc]

/-- A weaker condition `q` holds along the same scan. -/
theorem Visits.mono (h : Visits p s a) (hpq : ∀ d c, p d c → q d c) : Visits q s a := by
  induction a generalizing s with
  | nil => trivial
  | cons c a ih => exact ⟨fun hc => hpq _ _ (h.1 hc), ih h.2⟩

/-! ## Between tokens -/

/-- Code may start at the state, with `d` brackets open: it is in code, or behind a closed empty
string. -/
structure Rests (s : ScanState) (d : Nat) : Prop where
  depth : s.depth = d
  mode : s.mode = .code ∨ ∃ quote, isQuote quote = true ∧ s.mode = .openingTwo quote

/-- Code rests: there is nothing open but brackets (`Rests`). -/
theorem rests_code (d : Nat) : Rests ⟨d, .code⟩ d := ⟨rfl, .inl rfl⟩

/-- A character that is no quote is met as in code (`nextInCode`), also behind two quotes. -/
theorem Rests.next_eq (h : s.Rests d) (hc : isQuote c = false) : s.next c = nextInCode d c := by
  obtain ⟨depth, mode⟩ := s
  obtain ⟨rfl, rfl | ⟨quote, hq, rfl⟩⟩ := h
  · rfl
  · have hne : c ≠ quote := by
      rintro rfl
      rw [hq] at hc
      cases hc
    exact if_neg hne

/-- Only number signs and quotes are no code between tokens (`Rests`). -/
theorem Rests.isCode_eq (h : s.Rests d) (c : Char) : s.isCode c = (c != '#' && !isQuote c) := by
  obtain ⟨depth, mode⟩ := s
  obtain ⟨rfl, rfl | ⟨quote, hq, rfl⟩⟩ := h <;> rfl

/-- A plain character stands for itself in code: no quote, bracket or number sign. -/
def isPlain (c : Char) : Bool :=
  c != '#' && !isQuote c && !isOpening c && !isClosing c

/-- A plain character is no quote, so it opens no string. -/
theorem isQuote_of_isPlain (h : isPlain c = true) : isQuote c = false := by
  simp only [isPlain, Bool.and_eq_true, Bool.not_eq_true'] at h
  exact h.1.1.2

/-- A plain character is no number sign, so it opens no comment. -/
theorem ne_numberSign_of_isPlain (h : isPlain c = true) : c ≠ '#' := by
  rintro rfl
  cases h

/-- Code goes on behind a plain character, with the same brackets open. -/
theorem nextInCode_plain (h : isPlain c = true) (d : Nat) : nextInCode d c = ⟨d, .code⟩ := by
  simp only [isPlain, Bool.and_eq_true, Bool.not_eq_true', bne_iff_ne] at h
  obtain ⟨⟨⟨hc, hq⟩, ho⟩, hcl⟩ := h
  simp [nextInCode, hc, hq, ho, hcl]

/-- Between tokens (`Rests`), code goes on behind a plain character. -/
theorem Rests.next_plain (h : s.Rests d) (hc : isPlain c = true) : s.next c = ⟨d, .code⟩ := by
  rw [h.next_eq (isQuote_of_isPlain hc), nextInCode_plain hc]

/-! ## Texts that scan -/

/-- A text that is scanned from code on, with `d` brackets open, and under a condition `p`, ends
between tokens with the same brackets open. -/
structure Scans (p : Nat → Char → Prop) (d : Nat) (text : List Char) : Prop where
  visits : Visits p ⟨d, .code⟩ text
  rests : (run ⟨d, .code⟩ text).Rests d

/-- No text scans, under any condition (`Scans`). -/
theorem scans_nil : Scans p d [] := ⟨trivial, rests_code d⟩

/-- A text scans under a weaker condition `q`. -/
theorem Scans.mono (h : Scans p d a) (hpq : ∀ d c, p d c → q d c) : Scans q d a :=
  ⟨h.visits.mono hpq, h.rests⟩

/-- Between two texts that scan there may be a plain character, such as a colon or a comma
(`Scans`). -/
theorem Scans.append_cons (ha : Scans p d a) (hc : isPlain c = true) (hp : p d c)
    (hb : Scans p d b) : Scans p d (a ++ c :: b) := by
  have hnext := ha.rests.next_plain hc
  refine ⟨visits_append.2 ⟨ha.visits, fun _ => ?_, ?_⟩, ?_⟩
  · rw [ha.rests.depth]
    exact hp
  · rw [hnext]
    exact hb.visits
  · rw [run_append, run_cons, hnext]
    exact hb.rests

/-- In front of a text that scans there may be a plain character, if it satisfies `p`. -/
theorem Scans.cons (hc : isPlain c = true) (hp : p d c) (h : Scans p d a) :
    Scans p d (c :: a) :=
  scans_nil.append_cons hc hp h

/-- In front of a text that scans there may be plain characters, if they satisfy `p`. -/
theorem Scans.plain_append (ha : ∀ c ∈ a, isPlain c = true ∧ p d c) (hb : Scans p d b) :
    Scans p d (a ++ b) := by
  induction a with
  | nil => exact hb
  | cons c a ih =>
    have hc := ha c List.mem_cons_self
    exact .cons hc.1 hc.2 (ih fun c hc => ha c (List.mem_cons_of_mem _ hc))

/-- Plain characters that satisfy `p` scan, by induction over them. -/
theorem scans_plain (h : ∀ c ∈ a, isPlain c = true ∧ p d c) : Scans p d a := by
  rw [← List.append_nil a]
  exact .plain_append h scans_nil

/-- A text between brackets scans, if it does so with one bracket more open (`Scans`). -/
theorem Scans.enclosed {left right : Char} (hl : isOpening left = true)
    (hr : isClosing right = true) (h : Scans p (d + 1) a) (hp : p d left)
    (hp' : p (d + 1) right) : Scans p d (left :: a ++ [right]) := by
  have hleft : next ⟨d, .code⟩ left = ⟨d + 1, .code⟩ := by
    simp only [isOpening, Bool.or_eq_true, beq_iff_eq] at hl
    rcases hl with (rfl | rfl) | rfl <;> rfl
  have hquote : isQuote right = false := by
    simp only [isClosing, Bool.or_eq_true, beq_iff_eq] at hr
    rcases hr with (rfl | rfl) | rfl <;> rfl
  have hright : (run ⟨d + 1, .code⟩ a).next right = ⟨d, .code⟩ := by
    rw [h.rests.next_eq hquote]
    simp only [isClosing, Bool.or_eq_true, beq_iff_eq] at hr
    rcases hr with (rfl | rfl) | rfl <;> rfl
  rw [List.cons_append]
  refine ⟨⟨fun _ => hp, ?_⟩, ?_⟩
  · rw [hleft, visits_append]
    refine ⟨h.visits, fun _ => ?_, trivial⟩
    rw [h.rests.depth]
    exact hp'
  · rw [run_cons, hleft, run_append, run_cons, hright]
    exact rests_code d

end ScanState

/-! ## Looking for a place in code -/

open ScanState (Visits)

variable {s : ScanState} {w : List Char}

/-- No place is found where the `test` fails along the scan, so it is looked for behind. -/
theorem breakAt_append {test : Nat → Char → Bool} (h : Visits (fun d c => test d c = false) s w)
    (r : List Char) :
    breakAt test s (w ++ r)
      = (breakAt test (s.run w) r).map fun (before, behind) => (w ++ before, behind) := by
  induction w generalizing s with
  | nil => cases h : breakAt test s r <;> simp [h]
  | cons c w ih =>
    have htest : ¬(s.isCode c && test s.depth c) = true := by
      rw [Bool.and_eq_true]
      rintro ⟨hcode, htest⟩
      rw [h.1 hcode] at htest
      cases htest
    rw [List.cons_append, breakAt, if_neg htest, ih h.2, ScanState.run_cons, Option.map_map]
    rfl

/-- A text along which no separator stands outside brackets is part of one piece, the first
(`Visits`). -/
theorem splitFrom_append {sep : Char} (h : Visits (fun d c => d = 0 → c ≠ sep) s w)
    (r : List Char) :
    splitFrom sep s (w ++ r) = (splitFrom sep (s.run w) r).modifyHead (w ++ ·) := by
  induction w generalizing s with
  | nil => cases h : splitFrom sep s r <;> simp [h]
  | cons c w ih =>
    have hsep : ¬(s.isTop c && c == sep) = true := by
      simp only [ScanState.isTop, Bool.and_eq_true, beq_iff_eq]
      rintro ⟨⟨hdepth, hcode⟩, hsep⟩
      exact h.1 hcode hdepth hsep
    rw [List.cons_append, splitFrom, if_neg hsep, ih h.2, ScanState.run_cons,
      List.modifyHead_modifyHead]
    rfl

/-- A text along which no separator stands outside brackets is one piece, with nothing behind it
(`Visits`). -/
theorem splitFrom_piece {sep : Char} (h : Visits (fun d c => d = 0 → c ≠ sep) s w) :
    splitFrom sep s w = [w] := by
  have hsplit := splitFrom_append h []
  rw [List.append_nil, splitFrom, List.modifyHead_cons, List.append_nil] at hsplit
  exact hsplit

/-- A separator outside brackets, strings and comments is found by the test of `splitFrom`. -/
theorem found_of_isTop {sep : Char} (h : s.isTop sep = true) :
    (s.isTop sep && sep == sep) = true := by
  rw [h, beq_self_eq_true]
  rfl

/-- A text that scans without a separator outside brackets is the piece before a separator, behind
which the scan starts anew (`Scans`). -/
theorem splitFrom_cons {sep : Char} (hsep : ScanState.isPlain sep = true)
    (h : ScanState.Scans (fun d c => d = 0 → c ≠ sep) 0 w) (r : List Char) :
    splitFrom sep .start (w ++ sep :: r) = w :: splitFrom sep .start r := by
  have hvisits : Visits (fun d c => d = 0 → c ≠ sep) .start w := h.visits
  have hrests : (ScanState.start.run w).Rests 0 := h.rests
  have hcode : (ScanState.start.run w).isCode sep = true := by
    rw [hrests.isCode_eq, ScanState.isQuote_of_isPlain hsep, Bool.not_false, Bool.and_true]
    exact bne_iff_ne.2 (ScanState.ne_numberSign_of_isPlain hsep)
  have htop : (ScanState.start.run w).isTop sep = true := by
    rw [ScanState.isTop, hrests.depth, hcode]
    rfl
  rw [splitFrom_append hvisits, splitFrom, if_pos (found_of_isTop htop), hrests.next_plain hsep,
    List.modifyHead_cons, List.append_nil]
  rfl

end WorkflowTemplates.Source
