import WorkflowTemplates.Proofs.Source.Passage
import WorkflowTemplates.Proofs.Source.StringReader
import WorkflowTemplates.Proofs.Text.Runs

/-!
# Strings that are read are scanned as strings

The reader of literals finds the end of a string by looking ahead at every quote, and the scanner by
counting quotes; the reader decodes escapes by number, and the scanner knows none. Still both come
to the same end of every string that is read (`readString_skips`): between characters the reader is
where the scanner has counted too few quotes to close the string (`Between`), and no digit of an
escape is a quote, a backslash or the end of a line. What the reader does with one character
(`Takes`) the scanner follows (`Takes.skips`), and the induction over the string only puts these
steps together.
-/

namespace WorkflowTemplates.Literal

open Source (Mode ScanState isQuote)
open Source.ScanState (Skips inString)

variable {q : Quoting} {quote c : Char} {raw : Bool} {d : Nat} {m : Mode}
  {s t rest x : List Char}

/-! ## Quotes and digits -/

/-- No quote is a backslash or ends a line (`isQuote`). -/
theorem ne_of_isQuote (h : isQuote quote = true) : quote ≠ '\\' ∧ quote ≠ '\n' :=
  ⟨Text.ne_of_kind h rfl, Text.ne_of_kind h rfl⟩

/-- If two quotes do not follow (`behindTwo?`), then fewer do. -/
theorem length_takeWhile_of_behindTwo? (h : behindTwo? quote s = none) :
    (s.takeWhile (· == quote)).length < 2 := by
  match s with
  | [] => exact Nat.zero_lt_two
  | [a] =>
    have hle := (List.takeWhile_prefix (· == quote) (l := [a])).length_le
    exact Nat.lt_succ_of_le hle
  | a :: b :: t =>
    by_cases ha : a = quote
    · have hb : b ≠ quote := by
        rintro rfl
        rw [behindTwo?, if_pos ⟨ha, rfl⟩] at h
        cases h
      simp [ha, hb]
    · simp [ha]

/-- The digits of an escape by number, and the sign that may stand before them, as the reader of
numbers takes one. -/
def isEscapeDigit (c : Char) : Bool :=
  c == '+' || (Text.Hex.digitValue? c).isSome

/-- No digit of an escape is special in a string: it is no quote, no backslash and no line feed. -/
theorem ne_of_isEscapeDigit (h : isEscapeDigit c = true) (hquote : isQuote quote = true) :
    c ≠ quote ∧ c ≠ '\\' ∧ c ≠ '\n' := by
  refine ⟨?_, Text.ne_of_kind h (by decide), Text.ne_of_kind h (by decide)⟩
  simp only [isQuote, Bool.or_eq_true, beq_iff_eq] at hquote
  rcases hquote with rfl | rfl <;> exact Text.ne_of_kind h (by decide)

/-- Only digits have a magnitude: what `magnitude` reads consists of digits of some radix. -/
theorem isSome_digitValue?_of_magnitude {radix limit n : Nat} {overflow : Decimal.IntegerError}
    {digits : List Char} :
    ∀ {acc : Nat}, Decimal.magnitude radix limit overflow acc digits = .ok n →
      ∀ c ∈ digits, (Text.Hex.digitValue? c).isSome = true := by
  induction digits with
  | nil => exact fun _ _ hc => absurd hc List.not_mem_nil
  | cons a digits ih =>
    intro acc h
    rw [Decimal.magnitude] at h
    cases ha : Text.Hex.digitValue? a with
    | none =>
      rw [ha] at h
      cases h
    | some v =>
      rw [ha] at h
      dsimp only at h
      split at h
      · cases h
      split at h
      · cases h
      refine List.forall_mem_cons.2 ⟨?_, ih h⟩
      rw [ha]
      rfl

/-- An escape by number that stands for a character (`escapeValue?`) consists of digits. -/
theorem isEscapeDigit_of_escapeValue? {digits : List Char} {v : Char}
    (h : escapeValue? digits = some v) : ∀ c ∈ digits, isEscapeDigit c = true := by
  have hdigit (c : Char) (hc : (Text.Hex.digitValue? c).isSome = true) :
      isEscapeDigit c = true := by
    rw [isEscapeDigit, hc, Bool.or_true]
  unfold escapeValue? at h
  dsimp only at h
  split at h
  · next n hn =>
    have hall := isSome_digitValue?_of_magnitude hn
    split at hall
    · exact List.forall_mem_cons.2 ⟨rfl, fun c hc => hdigit c (hall c hc)⟩
    · exact fun c hc => hdigit c (hall c hc)
  · cases h

/-! ## The content of strings -/

/-- An escape by number is read only if all of its digits are, those that are `read` already
included. -/
theorem isEscapeDigit_of_readContent {read : List Char} {left : Nat}
    (h : readContent q (.digits read left) s = .ok (x, rest)) :
    ∀ c ∈ read, isEscapeDigit c = true := by
  induction s generalizing read left with
  | nil => cases h
  | cons c s ih =>
    rw [readContent] at h
    split at h
    · exact fun b hb => ih h b (List.mem_append_left _ hb)
    · cases hv : escapeValue? (read ++ [c]) with
      | none =>
        rw [hv] at h
        cases h
      | some v => exact fun b hb => isEscapeDigit_of_escapeValue? hv b (List.mem_append_left _ hb)

/-- The mode of the scanner inside a string, behind a character that is no quote, for each way of
quoting. -/
def plainMode (q : Quoting) : Mode :=
  if q.long then .long q.quote 0 else .short q.quote

/-- The mode of the scanner behind a backslash in a string, for each way of quoting. -/
def escapeMode (q : Quoting) : Mode :=
  if q.long then .longEscape q.quote else .shortEscape q.quote

/-- The scanner is inside a string before a text: with the quotes that follow, it has not counted
enough of them to close a long string. The reader looks ahead where the scanner counts, and this is
what both agree on. -/
def Between (q : Quoting) (text : List Char) (m : Mode) : Prop :=
  m = plainMode q ∨ q.long = true ∧ ∃ n, m = .long q.quote n
    ∧ n + (text.takeWhile (· == q.quote)).length < 3

/-- Where the scanner is in a string when the reader is in a state before a text: behind a
backslash, or between characters (`Between`), to which the digits of an escape belong. -/
def StandsIn (q : Quoting) : StringState → List Char → Mode → Prop
  | .escape, _, m => m = escapeMode q
  | .plain, text, m | .digits .., text, m => Between q text m

/-- In a string, but not behind two quotes (`hm`), the scan goes on behind each character. Behind
two quotes it depends on the character whether the string is closed. -/
theorem skips_step {m m' : Mode} (hin : ScanState.inString ⟨d, m⟩ c = true)
    (hm : ∀ quote, m ≠ .openingTwo quote) (hnext : ScanState.next ⟨d, m⟩ c = ⟨d, m'⟩)
    (h : Skips d ⟨d, m'⟩ s rest) : Skips d ⟨d, m⟩ (c :: s) rest := by
  refine .inside hin (fun quote hquote => absurd hquote (hm quote)) ?_
  rw [hnext]
  exact h

/-- A character that is not special in a string belongs to it, and behind it no quote is counted. -/
theorem Between.skips_char (h : Between q (c :: s) m) (hquote : c ≠ q.quote)
    (hbackslash : c ≠ '\\') (hbreak : q.long = false → c ≠ '\n')
    (hrest : Skips d ⟨d, plainMode q⟩ s rest) : Skips d ⟨d, m⟩ (c :: s) rest := by
  obtain ⟨quote, raw, long⟩ := q
  cases long with
  | false =>
    rcases h with rfl | ⟨hlong, -⟩
    · have hnext : ScanState.nextInShort quote c = .short quote := by
        rw [ScanState.nextInShort, if_neg hquote, if_neg hbackslash, if_neg (hbreak rfl)]
      exact skips_step (bne_iff_ne.2 (hbreak rfl)) (by simp [plainMode])
        (congrArg (ScanState.mk d) hnext) hrest
    · cases hlong
  | true =>
    obtain ⟨n, rfl⟩ : ∃ n, m = .long quote n := by
      rcases h with rfl | ⟨-, n, rfl, -⟩
      · exact ⟨0, rfl⟩
      · exact ⟨n, rfl⟩
    have hnext : ScanState.next ⟨d, .long quote n⟩ c = ⟨d, .long quote 0⟩ := by
      rw [ScanState.next]
      dsimp only
      rw [if_neg hquote, if_neg hbackslash]
    exact skips_step rfl (by simp) hnext hrest

/-- A backslash belongs to a string, and behind it the scanner is in `escapeMode`. -/
theorem Between.skips_backslash (h : Between q ('\\' :: s) m) (hquote : isQuote q.quote = true)
    (hrest : Skips d ⟨d, escapeMode q⟩ s rest) : Skips d ⟨d, m⟩ ('\\' :: s) rest := by
  obtain ⟨quote, raw, long⟩ := q
  have hne : '\\' ≠ quote := fun h => (ne_of_isQuote hquote).1 h.symm
  cases long with
  | false =>
    rcases h with rfl | ⟨hlong, -⟩
    · have hnext : ScanState.nextInShort quote '\\' = .shortEscape quote := by
        rw [ScanState.nextInShort, if_neg hne, if_pos rfl]
      exact skips_step rfl (by simp [plainMode]) (congrArg (ScanState.mk d) hnext) hrest
    · cases hlong
  | true =>
    obtain ⟨n, rfl⟩ : ∃ n, m = .long quote n := by
      rcases h with rfl | ⟨-, n, rfl, -⟩
      · exact ⟨0, rfl⟩
      · exact ⟨n, rfl⟩
    have hnext : ScanState.next ⟨d, .long quote n⟩ '\\' = ⟨d, .longEscape quote⟩ := by
      rw [ScanState.next]
      dsimp only
      rw [if_neg hne, if_pos rfl]
    exact skips_step rfl (by simp) hnext hrest

/-- The character behind a backslash belongs to a string, whatever it is. -/
theorem skips_escaped (hrest : Skips d ⟨d, plainMode q⟩ s rest) :
    Skips d ⟨d, escapeMode q⟩ (c :: s) rest := by
  obtain ⟨quote, raw, long⟩ := q
  cases long with
  | false => exact skips_step rfl (by simp [escapeMode]) rfl hrest
  | true => exact skips_step rfl (by simp [escapeMode]) rfl hrest

/-- A quote closes a short string, and code goes on behind it. -/
theorem Between.skips_short (h : Between q (q.quote :: s) m) (hquote : isQuote q.quote = true)
    (hlong : q.long = false) : Skips d ⟨d, m⟩ (q.quote :: s) s := by
  obtain ⟨quote, raw, long⟩ := q
  cases hlong
  rcases h with rfl | ⟨hlong, -⟩
  · have hnext : ScanState.nextInShort quote quote = .code := if_pos rfl
    exact skips_step (bne_iff_ne.2 (ne_of_isQuote hquote).2) (by simp [plainMode])
      (congrArg (ScanState.mk d) hnext) (.closed (ScanState.before_code d s))
  · cases hlong

/-- Three quotes close a long string, since none was counted before them (`Between`). -/
theorem Between.skips_long (h : Between q (q.quote :: q.quote :: q.quote :: s) m)
    (hlong : q.long = true) : Skips d ⟨d, m⟩ (q.quote :: q.quote :: q.quote :: s) s := by
  obtain ⟨quote, raw, long⟩ := q
  cases hlong
  have hmode : m = .long quote 0 := by
    rcases h with rfl | ⟨-, n, -, hn⟩
    · rfl
    · simp only [List.takeWhile_cons, beq_self_eq_true, if_true, List.length_cons] at hn
      omega
  subst hmode
  have hnext (n : Nat) : ScanState.next ⟨d, .long quote n⟩ quote
      = ⟨d, if n = 2 then .code else .long quote (n + 1)⟩ := by
    rw [ScanState.next]
    dsimp only
    rw [if_pos rfl]
  have hlast : Skips d ⟨d, .long quote 2⟩ (quote :: s) s :=
    skips_step rfl (by simp) (hnext 2) (.closed (ScanState.before_code d s))
  have hsecond : Skips d ⟨d, .long quote 1⟩ (quote :: quote :: s) s :=
    skips_step rfl (by simp) (hnext 1) hlast
  exact skips_step rfl (by simp) (hnext 0) hsecond

/-- A quote belongs to a long string if two more do not follow (`hnone`), and is counted. -/
theorem Between.next_quote (h : Between q (q.quote :: s) m) (hlong : q.long = true)
    (hnone : behindTwo? q.quote s = none) :
    ∃ n, m = .long q.quote n ∧ ScanState.next ⟨d, m⟩ q.quote = ⟨d, .long q.quote (n + 1)⟩
      ∧ Between q s (.long q.quote (n + 1)) := by
  have hcount := length_takeWhile_of_behindTwo? hnone
  obtain ⟨n, rfl, hn⟩ : ∃ n, m = .long q.quote n
      ∧ n + 1 + (s.takeWhile (· == q.quote)).length < 3 := by
    rcases h with rfl | ⟨-, n, rfl, hn⟩
    · refine ⟨0, ?_, by omega⟩
      rw [plainMode, if_pos hlong]
    · simp only [List.takeWhile_cons, beq_self_eq_true, if_true, List.length_cons] at hn
      exact ⟨n, rfl, by omega⟩
  refine ⟨n, rfl, ?_, .inr ⟨hlong, n + 1, rfl, hn⟩⟩
  rw [ScanState.next]
  dsimp only
  rw [if_pos rfl, if_neg (by omega)]

/-- The quotes that close a string (`ClosesAt`) belong to it, and behind them the scanner is in
code. -/
theorem Between.skips_closing (h : Between q (c :: s) m) (hquote : isQuote q.quote = true)
    (hcloses : ClosesAt q c s) : Skips d ⟨d, m⟩ (c :: s) (behindClosing q s) := by
  obtain ⟨rfl, hsome⟩ := hcloses
  cases hlong : q.long with
  | false =>
    rw [behindClosing, hlong]
    exact h.skips_short hquote hlong
  | true =>
    obtain ⟨t, ht⟩ := Option.isSome_iff_exists.1 (hsome hlong)
    obtain rfl := behindTwo?_eq_some ht
    rw [behindClosing, hlong]
    exact h.skips_long hlong

/-- A character that is read as itself belongs to the string. If it is a quote, then the string is
long and the scanner has counted one quote more behind it, which `hrest` allows for. -/
theorem Between.skips_plain (h : Between q (c :: s) m) (hopen : ¬ClosesAt q c s)
    (hbackslash : c ≠ '\\') (hbreak : q.long = false → c ≠ '\n')
    (hrest : ∀ {m'}, Between q s m' → Skips d ⟨d, m'⟩ s rest) : Skips d ⟨d, m⟩ (c :: s) rest := by
  by_cases hc : c = q.quote
  · subst hc
    obtain ⟨hshort, hlong⟩ := not_closesAt_iff.1 hopen
    have hislong : q.long = true := by simpa using hshort
    have hnone : behindTwo? q.quote s = none := by simpa using hlong
    obtain ⟨n, rfl, hnext, hbetween⟩ := h.next_quote (d := d) hislong hnone
    exact skips_step rfl (by simp) hnext (hrest hbetween)
  · exact h.skips_char hc hbackslash hbreak (hrest (.inl rfl))

/-- A digit of an escape belongs to the string, as it is not special there. -/
theorem Between.skips_digit (h : Between q (c :: s) m) (hquote : isQuote q.quote = true)
    (hdigit : isEscapeDigit c = true) (hrest : Skips d ⟨d, plainMode q⟩ s rest) :
    Skips d ⟨d, m⟩ (c :: s) rest := by
  obtain ⟨hne, hbackslash, hbreak⟩ := ne_of_isEscapeDigit hdigit hquote
  exact h.skips_char hne hbackslash (fun _ => hbreak) hrest

/-- What the reader takes (`Takes`) belongs to the string for the scanner too, if the rest of what
is read does wherever the scanner then stands (`StandsIn`). -/
theorem Takes.skips {state state' : StringState} {chars : List Char}
    (h : Takes q state c s chars state') (hquote : isQuote q.quote = true)
    (hm : StandsIn q state (c :: s) m) (hread : readContent q state' s = .ok (x, rest))
    (hrest : ∀ {m'}, StandsIn q state' s m' → Skips d ⟨d, m'⟩ s rest) :
    Skips d ⟨d, m⟩ (c :: s) rest := by
  have hplain : Between q s (plainMode q) := .inl rfl
  cases h with
  | char hopen hbackslash hbreak => exact Between.skips_plain hm hopen hbackslash hbreak hrest
  | backslash => exact Between.skips_backslash hm hquote (hrest rfl)
  | raw | short | numbered | unknown =>
    obtain rfl : m = escapeMode q := hm
    exact skips_escaped (hrest hplain)
  | digit =>
    have hdigit := isEscapeDigit_of_readContent hread c
      (List.mem_append_right _ List.mem_cons_self)
    exact Between.skips_digit hm hquote hdigit (hrest hplain)
  | lastDigit _ hvalue =>
    have hdigit := isEscapeDigit_of_escapeValue? hvalue c
      (List.mem_append_right _ List.mem_cons_self)
    exact Between.skips_digit hm hquote hdigit (hrest hplain)

/-- **The content of a string is scanned as the content of a string**, up to its closing quotes, by
induction over the text with the invariant `StandsIn`. -/
theorem readContent_skips (hquote : isQuote q.quote = true) {state : StringState}
    (h : readContent q state s = .ok (x, rest)) (hm : StandsIn q state s m) :
    Skips d ⟨d, m⟩ s rest := by
  induction s generalizing state x m with
  | nil => cases state <;> cases h
  | cons c s ih =>
    obtain ⟨rfl, hcloses, -, rfl⟩ | ⟨chars, state', y, htakes, hy, -⟩ := readContent_cons_eq_ok h
    · exact Between.skips_closing hm hquote hcloses
    · exact htakes.skips hquote hm hy fun hm' => ih hy hm'

/-! ## Strings -/

/-- Behind its first quote, a second one may close a string or be the second of three: the mode
`openingTwo` leaves that open. -/
theorem next_opening (d : Nat) (quote : Char) :
    ScanState.next ⟨d, .opening quote⟩ quote = ⟨d, .openingTwo quote⟩ := by
  rw [ScanState.next]
  simp

/-- Two quotes behind which no third one stands (`hrest`) are an empty string. -/
theorem skips_empty (hquote : isQuote quote = true) (hrest : rest.head? ≠ some quote) :
    Skips d ⟨d, .opening quote⟩ (quote :: rest) rest := by
  have hbreak := (ne_of_isQuote hquote).2
  refine skips_step (bne_iff_ne.2 hbreak) (by simp) (next_opening d quote) (.closed ?_)
  refine ⟨⟨rfl, .inr ⟨quote, hquote, rfl⟩⟩, ?_⟩
  rintro _ ⟨⟩
  exact hrest

/-- Three quotes open a long string, from which the scan goes on as `h` says. -/
theorem skips_openLong (hquote : isQuote quote = true)
    (h : Skips d ⟨d, .long quote 0⟩ s rest) :
    Skips d ⟨d, .opening quote⟩ (quote :: quote :: s) rest := by
  have hbreak := (ne_of_isQuote hquote).2
  have hnext : ScanState.next ⟨d, .openingTwo quote⟩ quote = ⟨d, .long quote 0⟩ := by
    rw [ScanState.next]
    simp
  refine skips_step (bne_iff_ne.2 hbreak) (by simp) (next_opening d quote) ?_
  refine .inside (beq_self_eq_true quote) ?_ ?_
  · rintro _ ⟨⟩
    exact hquote
  · rw [hnext]
    exact h

/-- A short string that is not empty is scanned from behind its quote on: the first quote is not
followed by a second one. -/
theorem skips_opening (hc : c ≠ quote) (h : Skips d ⟨d, .short quote⟩ (c :: s) rest) :
    Skips d ⟨d, .opening quote⟩ (c :: s) rest := by
  cases h with
  | closed hbefore =>
    rcases hbefore.mode with hmode | ⟨_, -, hmode⟩
    · cases hmode
    · cases hmode
  | inside hin _ hrest =>
    have hnext : ScanState.next ⟨d, .opening quote⟩ c = ScanState.next ⟨d, .short quote⟩ c := by
      rw [ScanState.next, ScanState.next]
      dsimp only
      rw [if_neg hc]
    exact skips_step hin (by simp) hnext hrest

/-- **Strings end where they are scanned to end**: from behind the first quote on, a string that is
read belongs to the string that the scanner is in, and is closed where the reader leaves the text
(`Skips`). -/
theorem readString_skips (hquote : isQuote quote = true)
    (h : readString raw quote s = .ok (x, rest)) : Skips d ⟨d, .opening quote⟩ s rest := by
  rw [readString] at h
  cases htwo : behindTwo? quote s with
  | some t =>
    rw [htwo] at h
    obtain rfl := behindTwo?_eq_some htwo
    exact skips_openLong hquote (readContent_skips hquote h (.inl rfl))
  | none =>
    rw [htwo] at h
    cases s with
    | nil => cases h
    | cons c s =>
      by_cases hc : c = quote
      -- A second quote that no third one follows closes an empty string.
      · subst hc
        rw [readContent, if_pos (by simp)] at h
        cases h
        refine skips_empty hquote fun hhead => ?_
        obtain ⟨t, rfl⟩ := List.head?_eq_some_iff.1 hhead
        rw [behindTwo?, if_pos ⟨rfl, rfl⟩] at htwo
        cases htwo
      · exact skips_opening hc (readContent_skips hquote h (.inl rfl))

end WorkflowTemplates.Literal
