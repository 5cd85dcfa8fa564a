import WorkflowTemplates.Proofs.Source.StringScan

/-!
# Balanced texts

A text is balanced if its brackets are, those in strings and comments not counted, and if its
strings and comments end in it (`Balanced`). The scanner passes over a balanced text and has the
same brackets open behind it as before (`Balanced.passes`): it is never outside the brackets around
the text, and meets no code in a string (`QuotedString.passes`).
-/

namespace WorkflowTemplates.Source

open Literal (skips_empty skips_opening skips_openLong skips_step)
open ScanState (Before Leads Passes Scans Skips before_code isPlain leads_refl passes_closing
  passes_opening passes_plain passes_refl)

variable {quote c : Char} {n d : Nat} {s t body rest : List Char} {p : Nat → Char → Prop}

/-! ## Strings -/

/-- What stands between the quotes of a short string: but behind a backslash, neither its quote nor
the end of a line. These are the short string literals of the Python grammar. -/
inductive ShortBody (quote : Char) : List Char → Prop
  | nil : ShortBody quote []
  | char {c : Char} {s : List Char} : c ≠ quote → c ≠ '\\' → c ≠ '\n' → ShortBody quote s →
    ShortBody quote (c :: s)
  | escape {c : Char} {s : List Char} : ShortBody quote s → ShortBody quote ('\\' :: c :: s)

/-- What stands between the quotes of a long string, behind `n` of its quotes: but behind a
backslash, no three quotes in a row, and none at the end. -/
inductive LongBody (quote : Char) : Nat → List Char → Prop
  | nil : LongBody quote 0 []
  | char {n : Nat} {c : Char} {s : List Char} : c ≠ quote → c ≠ '\\' → LongBody quote 0 s →
    LongBody quote n (c :: s)
  | escape {n : Nat} {c : Char} {s : List Char} : LongBody quote 0 s →
    LongBody quote n ('\\' :: c :: s)
  | quote {n : Nat} {s : List Char} : n < 2 → LongBody quote (n + 1) s →
    LongBody quote n (quote :: s)

/-- A complete string with its quotes: one quote on either side, or three. -/
inductive QuotedString : List Char → Prop
  | short {quote : Char} {body : List Char} : isQuote quote = true → ShortBody quote body →
    QuotedString (quote :: (body ++ [quote]))
  | long {quote : Char} {body : List Char} : isQuote quote = true → LongBody quote 0 body →
    QuotedString (quote :: quote :: quote :: (body ++ [quote, quote, quote]))

/-- A string starts with a quote, be it short or long (`QuotedString`). -/
theorem QuotedString.isQuote_head (h : QuotedString (quote :: s)) : isQuote quote = true := by
  generalize ht : quote :: s = t at h
  cases h with
  | short hquote =>
    cases ht
    exact hquote
  | long hquote =>
    cases ht
    exact hquote

/-- A short string is closed at its quote, by induction over what is in it (`ShortBody`). -/
theorem ShortBody.skips (h : ShortBody quote body) (hquote : isQuote quote = true)
    (rest : List Char) : Skips d ⟨d, .short quote⟩ (body ++ quote :: rest) rest := by
  have hbackslash := (Literal.ne_of_isQuote hquote).1
  have hbreak := (Literal.ne_of_isQuote hquote).2
  have hstep {c : Char} {s : List Char} {m : Mode} (hc : c ≠ '\n')
      (hm : ScanState.nextInShort quote c = m) (h : Skips d ⟨d, m⟩ s rest) :
      Skips d ⟨d, .short quote⟩ (c :: s) rest :=
    skips_step (bne_iff_ne.2 hc) (by simp) (congrArg (ScanState.mk d) hm) h
  induction h with
  | nil => exact hstep hbreak (if_pos rfl) (.closed (before_code d rest))
  | char hc hslash hline _ ih =>
    refine hstep hline ?_ ih
    rw [ScanState.nextInShort, if_neg hc, if_neg hslash, if_neg hline]
  | escape _ ih =>
    refine hstep (by decide) ?_ (skips_step (m := .shortEscape quote) rfl (by simp) rfl ih)
    rw [ScanState.nextInShort, if_neg hbackslash.symm, if_pos rfl]

/-- A long string is closed at three quotes, by induction over what is in it (`LongBody`), with the
quotes that were met last counted in the mode. -/
theorem LongBody.skips (h : LongBody quote n body) (hquote : isQuote quote = true)
    (hn : n ≤ 2) (rest : List Char) :
    Skips d ⟨d, .long quote n⟩ (body ++ quote :: quote :: quote :: rest) rest := by
  have hbackslash := (Literal.ne_of_isQuote hquote).1
  have hstep {n : Nat} {c : Char} {s : List Char} {m : Mode}
      (hnext : ScanState.next ⟨d, .long quote n⟩ c = ⟨d, m⟩) (h : Skips d ⟨d, m⟩ s rest) :
      Skips d ⟨d, .long quote n⟩ (c :: s) rest :=
    skips_step rfl (by simp) hnext h
  have hquoted (n : Nat) (hn : n < 2) :
      ScanState.next ⟨d, .long quote n⟩ quote = ⟨d, .long quote (n + 1)⟩ := by
    rw [ScanState.next]
    simp [Nat.ne_of_lt hn]
  have hclosed : ScanState.next ⟨d, .long quote 2⟩ quote = ⟨d, .code⟩ := by
    rw [ScanState.next]
    simp
  induction h with
  | nil =>
    exact hstep (hquoted 0 (by decide)) (hstep (hquoted 1 (by decide))
      (hstep hclosed (.closed (before_code d rest))))
  | char hc hslash _ ih =>
    refine hstep ?_ (ih (Nat.zero_le 2))
    rw [ScanState.next]
    simp [hc, hslash]
  | escape _ ih =>
    refine hstep ?_ (skips_step (m := .longEscape quote) rfl (by simp) rfl (ih (Nat.zero_le 2)))
    rw [ScanState.next]
    simp [hbackslash.symm]
  | quote hlt _ ih => exact hstep (hquoted _ hlt) (ih hlt)

/-- Whether the quotes of an empty string stay closed in front of a text, that is, whether the text
does not start with the same quote. -/
def StaysClosed (t rest : List Char) : Prop :=
  ∀ quote, t = [quote, quote] → rest.head? ≠ some quote

/-- A string is passed over, and no code is met in it, so any `p` holds of the code that is met. -/
theorem QuotedString.passes (h : QuotedString t) (hrest : StaysClosed t rest) :
    Passes p d d (t ++ rest) rest := by
  cases h with
  | @short quote body hquote hbody =>
    rw [List.cons_append, List.append_assoc, List.singleton_append]
    refine Skips.passes hquote ?_
    cases hbody with
    | nil => exact skips_empty hquote (hrest quote rfl)
    | char hc hslash hline hs =>
      exact skips_opening hc ((ShortBody.char hc hslash hline hs).skips hquote rest)
    | escape hs =>
      exact skips_opening (Literal.ne_of_isQuote hquote).1.symm
        ((ShortBody.escape hs).skips hquote rest)
  | @long quote body hquote hbody =>
    simp only [List.cons_append, List.append_assoc, List.nil_append]
    exact Skips.passes hquote
      (skips_openLong hquote (hbody.skips hquote (Nat.zero_le 2) rest))

/-! ## Balanced texts -/

/-- The pairs of brackets: parentheses, square ones and curly ones. -/
def bracketPairs : List (Char × Char) := [('(', ')'), ('[', ']'), ('\x7b', '\x7d')]

/-- A text whose brackets are balanced, and whose strings and comments end in it. Each constructor
puts a part in front of a balanced text: a plain character, a string, a comment with its line end,
or a pair of brackets around a balanced text. -/
inductive Balanced : List Char → Prop
  | nil : Balanced []
  | char {c : Char} {s : List Char} : isPlain c = true → Balanced s → Balanced (c :: s)
  | string {t s : List Char} : QuotedString t → StaysClosed t s → Balanced s → Balanced (t ++ s)
  | comment {t s : List Char} : '\n' ∉ t → Balanced s → Balanced ('#' :: (t ++ '\n' :: s))
  | brackets {left right : Char} {t s : List Char} : (left, right) ∈ bracketPairs → Balanced t →
    Balanced s → Balanced (left :: (t ++ right :: s))

/-- Plain characters (`isPlain`) in front of a balanced text leave it balanced. -/
theorem Balanced.plain_append (hs : ∀ c ∈ s, isPlain c = true) (ht : Balanced t) :
    Balanced (s ++ t) := by
  induction s with
  | nil => exact ht
  | cons c s ih =>
    obtain ⟨hc, hs⟩ := List.forall_mem_cons.1 hs
    exact .char hc (ih hs)

/-- The two sides of a pair of brackets open and close, as the scanner sees them. -/
theorem isOpening_of_bracketPairs {left right : Char} (h : (left, right) ∈ bracketPairs) :
    isOpening left = true ∧ isClosing right = true := by
  have hall : ∀ pair ∈ bracketPairs, isOpening pair.1 = true ∧ isClosing pair.2 = true := by
    decide
  exact hall _ h

/-- A comment is passed over with the end of its line, and the brackets around it stay open. -/
theorem passes_comment (ht : '\n' ∉ t) (rest : List Char) :
    Passes (fun e _ => d ≤ e) d d ('#' :: (t ++ '\n' :: rest)) rest := by
  have hinside : Leads (fun e _ => d ≤ e) ⟨d, .comment⟩ (t ++ '\n' :: rest) rest
      (Before · d rest) := by
    induction t with
    | nil => exact .cons (fun _ => Nat.le_refl d) (leads_refl (before_code d rest))
    | cons c t ih =>
      rw [List.mem_cons, not_or] at ht
      have hnext : ScanState.next ⟨d, .comment⟩ c = ⟨d, .comment⟩ := if_neg (Ne.symm ht.1)
      refine .cons (fun _ => Nat.le_refl d) ?_
      rw [hnext]
      exact ih ht.2
  intro st hst
  refine .cons (fun _ => Nat.le_of_eq hst.depth.symm) ?_
  rw [hst.next_eq]
  exact hinside

/-- **A balanced text is passed over**, and no fewer brackets are open in it than before, by
induction over `Balanced`. -/
theorem Balanced.passes (h : Balanced s)
    (hrest : ∀ quote, isQuote quote = true → rest.head? ≠ some quote) :
    Passes (fun e _ => d ≤ e) d d (s ++ rest) rest := by
  induction h generalizing d rest with
  | nil => exact passes_refl d rest
  | char hc _ ih => exact (passes_plain hc (Nat.le_refl d)).trans (ih hrest)
  | @string t s ht hclosed _ ih =>
    rw [List.append_assoc]
    refine (ht.passes ?_).trans (ih hrest)
    rintro quote rfl
    cases s with
    | nil => exact hrest quote ht.isQuote_head
    | cons c s => exact hclosed quote rfl
  | comment ht _ ih =>
    rw [List.cons_append, List.append_assoc]
    exact (passes_comment ht _).trans (ih hrest)
  | @brackets left right t s hpair _ _ iht ihs =>
    obtain ⟨hleft, hright⟩ := isOpening_of_bracketPairs hpair
    have hstop : ∀ quote, isQuote quote = true → (right :: (s ++ rest)).head? ≠ some quote := by
      rintro quote hquote ⟨⟩
      simp only [isQuote, Bool.or_eq_true, beq_iff_eq] at hquote
      rcases hquote with rfl | rfl <;> cases hright
    have hinside : Passes (fun e _ => d ≤ e) (d + 1) (d + 1) (t ++ right :: (s ++ rest))
        (right :: (s ++ rest)) :=
      (iht hstop).mono fun _ _ he => Nat.le_trans (Nat.le_succ d) he
    rw [List.cons_append, List.append_assoc]
    exact (passes_opening hleft (Nat.le_refl d)).trans
      (hinside.trans ((passes_closing hright (Nat.le_succ d)).trans (ihs hrest)))

/-- What is passed over up to its end scans (`Scans`), with nothing behind it. -/
theorem ScanState.Passes.scans (h : Passes p d d s []) : Scans p d s := by
  obtain ⟨read, hread, hvisits, hbefore⟩ := h _ (before_code d s)
  rw [List.append_nil] at hread
  subst hread
  exact ⟨hvisits, hbefore.toRests⟩

/-- A balanced text scans from any number `d` of open brackets, and no fewer are open in it than
before. -/
theorem Balanced.scans (h : Balanced s) (d : Nat) : Scans (fun e _ => d ≤ e) d s := by
  have hpasses : Passes (fun e _ => d ≤ e) d d (s ++ []) [] := h.passes nofun
  rw [List.append_nil] at hpasses
  exact hpasses.scans

/-- A string scans without any code, so any `p` holds of the code that is met in it. -/
theorem QuotedString.scans (h : QuotedString s) (d : Nat) : Scans p d s := by
  have hpasses : Passes p d d (s ++ []) [] := h.passes nofun
  rw [List.append_nil] at hpasses
  exact hpasses.scans

end WorkflowTemplates.Source
