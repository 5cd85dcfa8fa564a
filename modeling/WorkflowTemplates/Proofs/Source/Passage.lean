import WorkflowTemplates.Proofs.Source.Scan

/-!
# Passages of the scanner

A reader takes something off the front of a text and leaves the rest. The scanner passes over the
same characters (`Passes`) if from any state between two tokens before the text it comes to such a
state before the rest, and meets only code characters that satisfy a condition. The text that is
left belongs to the judgment, because two quotes close an empty string only if no third one follows
them; so passages compose without looking at what the parts end with.

A string is passed over inside (`Skips`): there is no code in it, and it ends where the scanner has
it end (`behindString`).
-/

namespace WorkflowTemplates.Source.ScanState

variable {p q : Nat → Char → Prop} {s : ScanState} {d d' d'' : Nat} {c : Char}
  {text middle rest : List Char} {goal goal' : ScanState → Prop}

/-! ## Passages -/

/-- Code starts before a text: the state rests (`Rests`), and the text does not make a long string
of an empty one that was closed. -/
structure Before (s : ScanState) (d : Nat) (text : List Char) : Prop extends s.Rests d where
  closed : ∀ quote, s.mode = .openingTwo quote → text.head? ≠ some quote

/-- Code may start before any text, from a state that is in code (`Before`). -/
theorem before_code (d : Nat) (text : List Char) : Before ⟨d, .code⟩ d text :=
  ⟨rests_code d, nofun⟩

/-- The next character is met as in code: two quotes before it are a closed string (`Before`). -/
theorem Before.next_eq (h : s.Before d (c :: text)) : s.next c = nextInCode d c := by
  obtain ⟨⟨hdepth, hmode⟩, hclosed⟩ := h
  obtain ⟨depth, mode⟩ := s
  cases hdepth
  rcases hmode with rfl | ⟨quote, -, rfl⟩
  · rfl
  · have hne : c ≠ quote := fun h => hclosed quote rfl (congrArg some h)
    exact if_neg hne

/-- The state `s` is led over the front of a text to the `rest`, and to a state of a kind (`goal`),
with `p` holding of the code that is met. -/
def Leads (p : Nat → Char → Prop) (s : ScanState) (text rest : List Char)
    (goal : ScanState → Prop) : Prop :=
  ∃ read, text = read ++ rest ∧ Visits p s read ∧ goal (s.run read)

/-- The scanner passes from between tokens, with `d` brackets open, over the front of a text to
between tokens before the `rest`, with `d'` open. The start is any state with code before the text
(`Before`). -/
def Passes (p : Nat → Char → Prop) (d d' : Nat) (text rest : List Char) : Prop :=
  ∀ s : ScanState, s.Before d text → Leads p s text rest (Before · d' rest)

/-- No text leads nowhere, if the state is of the kind already (`Leads`). -/
theorem leads_refl (h : goal s) : Leads p s text text goal :=
  ⟨[], rfl, trivial, h⟩

/-- One character is followed by the others: it satisfies `p` if it is code. -/
theorem Leads.cons (hc : s.isCode c = true → p s.depth c)
    (h : Leads p (s.next c) text rest goal) : Leads p s (c :: text) rest goal := by
  obtain ⟨read, rfl, hvisits, hgoal⟩ := h
  exact ⟨c :: read, rfl, ⟨hc, hvisits⟩, hgoal⟩

/-- What leads to a place leads on from there (`h'`), from whatever state it may be in. -/
theorem Leads.trans (h : Leads p s text middle goal)
    (h' : ∀ s', goal s' → Leads p s' middle rest goal') : Leads p s text rest goal' := by
  obtain ⟨read, rfl, hvisits, hgoal⟩ := h
  obtain ⟨read', rfl, hvisits', hgoal'⟩ := h' _ hgoal
  refine ⟨read ++ read', (List.append_assoc ..).symm, visits_append.2 ⟨hvisits, hvisits'⟩, ?_⟩
  rw [run_append]
  exact hgoal'

/-- A passage of no characters, with no bracket opened or closed (`Passes`). -/
theorem passes_refl (d : Nat) (text : List Char) : Passes p d d text text := fun _ hs =>
  leads_refl hs

/-- Passages compose: what is left by the first one (`middle`) is what the second one starts from.
-/
theorem Passes.trans (h : Passes p d d' text middle) (h' : Passes p d' d'' middle rest) :
    Passes p d d'' text rest := fun s hs => (h s hs).trans h'

/-- A passage under a condition `p` is one under a weaker condition `q`. -/
theorem Passes.mono (h : Passes p d d' text rest) (hpq : ∀ e c, p e c → q e c) :
    Passes q d d' text rest := by
  intro s hs
  obtain ⟨read, htext, hvisits, hbefore⟩ := h s hs
  exact ⟨read, htext, hvisits.mono hpq, hbefore⟩

/-- A character behind which code goes on (`hnext`) is passed over. -/
theorem passes_code (hp : p d c) (hnext : nextInCode d c = ⟨d', .code⟩) :
    Passes p d d' (c :: text) text := by
  intro s hs
  refine .cons (fun _ => ?_) (leads_refl ?_)
  · rw [hs.depth]
    exact hp
  · rw [hs.next_eq, hnext]
    exact before_code d' text

/-- A plain character is passed over (`isPlain`), and opens or closes nothing. -/
theorem passes_plain (hc : isPlain c = true) (hp : p d c) : Passes p d d (c :: text) text :=
  passes_code hp (nextInCode_plain hc d)

/-- A run of plain characters is passed over, by induction over the run (`Passes`). -/
theorem passes_run {run : List Char} (h : ∀ c ∈ run, isPlain c = true ∧ p d c) :
    Passes p d d (run ++ rest) rest := by
  induction run with
  | nil => exact passes_refl d rest
  | cons c run ih =>
    have hc := h c List.mem_cons_self
    exact (passes_plain hc.1 hc.2).trans (ih fun b hb => h b (List.mem_cons_of_mem _ hb))

/-- A bracket that opens is passed over, and is open behind it (`Passes`). -/
theorem passes_opening (hc : isOpening c = true) (hp : p d c) :
    Passes p d (d + 1) (c :: text) text := by
  refine passes_code hp ?_
  simp only [isOpening, Bool.or_eq_true, beq_iff_eq] at hc
  rcases hc with (rfl | rfl) | rfl <;> rfl

/-- A bracket that closes is passed over (`Passes`). It is met while one bracket more is open than
behind it. -/
theorem passes_closing (hc : isClosing c = true) (hp : p (d + 1) c) :
    Passes p (d + 1) d (c :: text) text := by
  refine passes_code hp ?_
  simp only [isClosing, Bool.or_eq_true, beq_iff_eq] at hc
  rcases hc with (rfl | rfl) | rfl <;> rfl

/-! ## Strings -/

/-- Whether a character belongs to the string that the scanner is in. Behind two quotes, only a
third one does. -/
def inString (s : ScanState) (c : Char) : Bool :=
  match s.mode with
  | .code | .comment => false
  | .opening _ | .short _ => c != '\n'
  | .openingTwo quote => c == quote
  | .shortEscape _ | .long .. | .longEscape _ => true

/-- The text behind the string that the scanner is in. A short string that is not closed ends before
the end of its line; if a string does not end at all, nothing is behind it. -/
def behindString : ScanState → List Char → List Char
  | _, [] => []
  | s, c :: text => if s.inString c then behindString (s.next c) text else c :: text

/-- No character of a string is code (`isCode`), whatever the state. -/
theorem isCode_of_inString (h : s.inString c = true)
    (hquote : ∀ quote, s.mode = .openingTwo quote → isQuote quote = true) :
    s.isCode c = false := by
  obtain ⟨depth, mode⟩ := s
  cases mode with
  | code | comment => cases h
  | opening | short => exact beq_eq_false_iff_ne.2 (bne_iff_ne.1 h)
  | openingTwo quote =>
    have hc : isQuote c = true := beq_iff_eq.1 h ▸ hquote quote rfl
    show (c != '#' && !isQuote c) = false
    rw [hc, Bool.not_true, Bool.and_false]
  | shortEscape | long | longEscape => rfl

/-- Where code starts (`Before`), no string goes on. -/
theorem Before.inString_eq (h : s.Before d (c :: text)) : s.inString c = false := by
  obtain ⟨⟨hdepth, hmode⟩, hclosed⟩ := h
  obtain ⟨depth, mode⟩ := s
  rcases hmode with rfl | ⟨quote, -, rfl⟩
  · rfl
  · exact beq_eq_false_iff_ne.2 fun h => hclosed quote rfl (congrArg some h)

/-- The string that the scanner is in is closed where the rest of a text starts: every character up
to there belongs to it (`inString`), and code starts behind it. -/
inductive Skips (d : Nat) : ScanState → List Char → List Char → Prop
  | closed {s : ScanState} {rest : List Char} : s.Before d rest → Skips d s rest rest
  | inside {s : ScanState} {c : Char} {text rest : List Char} :
    s.inString c = true → (∀ quote, s.mode = .openingTwo quote → isQuote quote = true) →
      Skips d (s.next c) text rest → Skips d s (c :: text) rest

/-- No code is met in a string, so it is led over under any condition `p`. -/
theorem Skips.leads (h : Skips d s text rest) : Leads p s text rest (Before · d rest) := by
  induction h with
  | closed hbefore => exact leads_refl hbefore
  | inside hc hquote _ ih =>
    exact ih.cons fun hcode => nomatch (isCode_of_inString hc hquote).symm.trans hcode

/-- A closed string ends where it is closed, as `behindString` computes it. -/
theorem Skips.behindString_eq (h : Skips d s text rest) : behindString s text = rest := by
  induction h with
  | @closed s rest hbefore =>
    cases rest with
    | nil => rfl
    | cons c rest => rw [behindString, hbefore.inString_eq, if_neg Bool.false_ne_true]
  | inside hc _ _ ih => rw [behindString, if_pos hc, ih]

/-- A string behind its first quote is passed over with the quote, and the brackets around it stay
open. -/
theorem Skips.passes (hc : isQuote c = true) (h : Skips d ⟨d, .opening c⟩ text rest) :
    Passes p d d (c :: text) rest := by
  intro s hs
  have hcode : s.isCode c = false := by
    rw [hs.isCode_eq, hc, Bool.not_true, Bool.and_false]
  have hnext : s.next c = ⟨d, .opening c⟩ := by
    have hcomment : c ≠ '#' := by
      rintro rfl
      cases hc
    rw [hs.next_eq, nextInCode, if_neg hcomment, if_pos hc]
  refine .cons (fun h => absurd (hcode.symm.trans h) Bool.false_ne_true) ?_
  rw [hnext]
  exact h.leads

end WorkflowTemplates.Source.ScanState
