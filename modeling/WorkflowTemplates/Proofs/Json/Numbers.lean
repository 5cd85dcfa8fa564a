import WorkflowTemplates.Json.Printer
import WorkflowTemplates.Json.Reader
import WorkflowTemplates.Proofs.Decimal.Digits
import WorkflowTemplates.Proofs.Text.Runs

/-!
# Reading numbers back

Reading a number looks no further than its text: what is read from the whole of a text is read from
its front, before anything that no number goes on with (`readNumber_append`). So integers of words
read back (`readNumber_text`), and so does any other number that reads back alone.
-/

namespace WorkflowTemplates.Json

open Text (Stops stops_cons isDigit)

/-- Whether a number may go on with `c` behind a digit. -/
def isNumberPart (c : Char) : Bool :=
  isDigit c || c == '.' || c == 'e' || c == 'E'

/-- The text `rest` starts with no character with which a number goes on (`isNumberPart`). -/
abbrev EndsNumber (rest : List Char) : Prop :=
  Stops isNumberPart rest

section
variable {rest : List Char}

/-- Behind the end of a number no digit follows, as far as runs of digits are concerned
(`EndsNumber`). -/
theorem EndsNumber.digits (h : EndsNumber rest) : Stops isDigit rest := by
  intro c t ht
  have hc := h c t ht
  simp only [isNumberPart, Bool.or_eq_false_iff] at hc
  exact hc.1.1.1

/-- Behind the end of a number neither a fraction nor an exponent follows, so that it is finished
(`Scaled.finish`). -/
theorem readTail_end (h : EndsNumber rest) (negative : Bool) (s : Scaled) :
    readTail negative s rest = s.finish negative rest := by
  unfold readTail
  split
  · exact absurd (h _ _ rfl) (by decide)
  · exact absurd (h _ _ rfl) (by decide)
  · rfl

/-! ## Reading looks no further than the number -/

/-- The value of an exponent is that of the digits before `rest`, which stays behind them. -/
theorem exponentValue_append (h : EndsNumber rest) : ∀ (t : List Char) (acc : Nat),
    exponentValue acc (t ++ rest) =
      match exponentValue acc t with
      | .ok (n, behind) => .ok (n, behind ++ rest)
      | .error behind => .error (behind ++ rest)
  | [], acc => by
    cases rest with
    | nil => rfl
    | cons c t => rw [List.nil_append, exponentValue, h.digits c t rfl]; rfl
  | c :: t, acc => by
    rw [List.cons_append, exponentValue, exponentValue]
    dsimp only
    cases isDigit c with
    | false => rfl
    | true =>
      rw [if_pos rfl, if_pos rfl]
      split
      · rfl
      · exact exponentValue_append h t _

/-- What is finished at the end of a text is finished before any `rest` with the same number. -/
theorem finish_append {s : Scaled} {negative : Bool} {n : Number} {behind : List Char}
    (h : s.finish negative behind = .ok (n, [])) (rest : List Char) :
    behind = [] ∧ s.finish negative rest = .ok (n, rest) := by
  unfold Scaled.finish at h ⊢
  split at h
  · cases h
    exact ⟨rfl, rfl⟩
  · cases h

/-- A sign is taken from the front of a text that is not empty, whatever follows it. -/
theorem takeSign_append (c : Char) (t rest : List Char) :
    Decimal.takeSign (c :: t ++ rest)
      = ((Decimal.takeSign (c :: t)).1, (Decimal.takeSign (c :: t)).2 ++ rest) := by
  rw [List.cons_append, Decimal.takeSign.eq_def, Decimal.takeSign.eq_def]
  split <;> simp_all

/-- An exponent that is read to the end of a text is read in front of `rest` as well. -/
theorem readExponent_append (h : EndsNumber rest) {negative : Bool} {s : Scaled} {n : Number}
    {t : List Char} (ht : readExponent negative s t = .ok (n, [])) :
    readExponent negative s (t ++ rest) = .ok (n, rest) := by
  cases t with
  | nil => cases ht
  | cons c t =>
  unfold readExponent at ht ⊢
  rw [takeSign_append]
  generalize Decimal.takeSign (c :: t) = signed at ht ⊢
  obtain ⟨down, digits⟩ := signed
  cases digits with
  | nil => cases ht
  | cons d digits =>
  dsimp only [List.cons_append] at ht ⊢
  split at ht
  · cases ht
  rw [if_neg ‹_›, ← List.cons_append, exponentValue_append h]
  cases hvalue : exponentValue 0 (d :: digits) with
  | ok value =>
    rw [hvalue] at ht
    obtain ⟨hnil, hfinish⟩ := finish_append ht rest
    dsimp only
    rw [hnil]
    exact hfinish
  -- An exponent out of range is decided by its sign and by whether the number is zero, and the
  -- digits behind it are dropped; none of this looks at the rest.
  | error behind =>
    rw [hvalue] at ht
    dsimp only at ht ⊢
    split at ht
    · cases ht
    obtain ⟨hnil, hfinish⟩ := finish_append ht rest
    rw [if_neg ‹_›, h.digits.dropWhile_append, hnil]
    exact hfinish

/-- The part behind the fraction that is read to the end of a text is read in front of `rest` as
well. -/
theorem readTail_append (h : EndsNumber rest) {negative : Bool} {s : Scaled} {n : Number}
    {t : List Char} (ht : readTail negative s t = .ok (n, [])) :
    readTail negative s (t ++ rest) = .ok (n, rest) := by
  unfold readTail at ht
  split at ht
  · exact readExponent_append h ht
  · exact readExponent_append h ht
  · obtain ⟨rfl, hfinish⟩ := finish_append ht rest
    rw [List.nil_append, readTail_end h, hfinish]

/-- A whole number that is read at the end of a text is read before any `rest` as well. -/
theorem readWhole_append {negative : Bool} {s : Scaled} {n : Number} {t : List Char}
    (ht : readWhole negative s t = .ok (n, [])) (rest : List Char) :
    t = [] ∧ readWhole negative s rest = .ok (n, rest) := by
  unfold readWhole at ht ⊢
  dsimp only at ht ⊢
  generalize (if negative = true then -(s.significand : Int) else s.significand) = value at ht ⊢
  split at ht
  · rw [if_pos ‹_›]
    exact finish_append ht rest
  rw [if_neg ‹_›]
  split at ht
  · cases ht
    exact ⟨rfl, rfl⟩
  · exact finish_append ht rest

/-- The part behind the whole digits that is read to the end of a text is read in front of `rest` as
well. -/
theorem readBehind_append (h : EndsNumber rest) {negative : Bool} {s : Scaled} {n : Number}
    {t : List Char} (ht : readBehind negative s t = .ok (n, [])) :
    readBehind negative s (t ++ rest) = .ok (n, rest) := by
  unfold readBehind at ht
  split at ht
  · rw [List.cons_append, readBehind, h.digits.takeWhile_append, h.digits.dropWhile_append]
    dsimp only at ht ⊢
    split at ht
    · cases ht
    · rw [if_neg ‹_›]
      exact readTail_append h ht
  · exact readExponent_append h ht
  · exact readExponent_append h ht
  · obtain ⟨rfl, hwhole⟩ := readWhole_append ht rest
    rw [List.nil_append]
    unfold readBehind
    split
    · exact absurd (h _ _ rfl) (by decide)
    · exact absurd (h _ _ rfl) (by decide)
    · exact absurd (h _ _ rfl) (by decide)
    · exact hwhole

/-- A number from its first digit on that is read to the end of a text is read in front of `rest` as
well. -/
theorem readDigits_append (h : EndsNumber rest) {negative : Bool} {n : Number} {t : List Char}
    (ht : readDigits negative t = .ok (n, [])) :
    readDigits negative (t ++ rest) = .ok (n, rest) := by
  unfold readDigits at ht ⊢
  rw [h.digits.takeWhile_append, h.digits.dropWhile_append]
  dsimp only at ht ⊢
  split at ht
  · cases ht
  · cases ht
  · exact readBehind_append h ht

/-- **Reading a number looks no further than its text**: what is read to the end of `t` is read in
front of any `rest` with which no number goes on (`EndsNumber`). -/
theorem readNumber_append (h : EndsNumber rest) {n : Number} {t : List Char}
    (ht : readNumber t = .ok (n, [])) : readNumber (t ++ rest) = .ok (n, rest) := by
  cases t with
  | nil => cases ht
  | cons c t =>
  rw [List.cons_append]
  unfold readNumber at ht ⊢
  split at ht
  · next s hs =>
    cases hs
    exact readDigits_append h ht
  · next hminus =>
    split
    · next s hs =>
      cases hs
      exact absurd rfl (hminus t)
    · exact readDigits_append h ht

end

/-! ## Integers -/

/-- Digits whose value fits a word (`maxWord`) are all taken, since no value on the way is greater.
-/
theorem foldl_addWhole : ∀ (digits : List Char) (n : Nat),
    Nat.ofDigitChars 10 digits n ≤ maxWord →
    digits.foldl Scaled.addWhole ⟨n, 0⟩ = ⟨Nat.ofDigitChars 10 digits n, 0⟩
  | [], n, _ => by rw [Nat.ofDigitChars_nil]; rfl
  | c :: digits, n, h => by
    rw [Nat.ofDigitChars_cons] at h ⊢
    have hfirst := Nat.le_trans (Decimal.le_ofDigitChars digits _) h
    rw [List.foldl_cons, Scaled.addWhole, if_pos ⟨rfl, hfirst⟩]
    exact foldl_addWhole digits _ h

/-- A written number that fits a word is read as a whole number of its value. -/
theorem readDigits_natural {n : Nat} (hn : n ≤ maxWord) (negative : Bool) :
    readDigits negative (Decimal.natural n) = readWhole negative ⟨n, 0⟩ [] := by
  have hdigits : ∀ c ∈ Decimal.natural n, isDigit c = true :=
    fun c hc => Decimal.isDigit_of_mem_natural hc
  have htake := (Text.stops_nil isDigit).takeWhile_run hdigits
  have hdrop := (Text.stops_nil isDigit).dropWhile_run hdigits
  rw [List.append_nil] at htake hdrop
  unfold readDigits
  rw [htake, hdrop]
  dsimp only
  split
  · next h => exact absurd h (Decimal.natural_ne_nil n)
  · next h =>
    have hpos : ¬0 < n := fun hpos => Decimal.head?_natural hpos (by rw [h]; rfl)
    have hzero : n = 0 := by omega
    subst hzero
    cases h
  · rw [foldl_addWhole, Decimal.ofDigitChars_natural]
    · rfl
    · rw [Decimal.ofDigitChars_natural]
      exact hn

/-- An integer of a word is what `readWhole` makes of its absolute value and its sign; zero has no
minus sign. -/
theorem readWhole_integer (i : Integer) :
    readWhole (decide (i.value < 0)) ⟨i.value.natAbs, 0⟩ [] = .ok (.integer i, []) := by
  have hvalue : (if decide (i.value < 0) = true then -((i.value.natAbs : Nat) : Int)
      else ((i.value.natAbs : Nat) : Int)) = i.value := by
    split
    · next h => have := of_decide_eq_true h; omega
    · next h => have := of_decide_eq_false (Bool.eq_false_iff.2 h); omega
  have hsign : ¬((0 : Int) ≠ 0 ∨ decide (i.value < 0) = true ∧ i.value = 0) := by
    rintro (h | ⟨h, h0⟩)
    · exact h rfl
    · have := of_decide_eq_true h
      omega
  unfold readWhole
  dsimp only
  rw [hvalue, if_neg hsign, Integer.ofInt?, dif_pos ⟨i.lower, i.upper⟩]

/-- An integer of a word is read back (`readNumber`) from its decimal text. -/
theorem readNumber_integer (i : Integer) :
    readNumber (Decimal.integer i.value) = .ok (.integer i, []) := by
  have hword : i.value.natAbs ≤ maxWord := by
    have hlower := i.lower
    have hupper := i.upper
    unfold maxWord
    omega
  have hwhole := readWhole_integer i
  unfold Decimal.integer
  split
  · next hneg =>
    rw [decide_eq_true hneg] at hwhole
    exact (readDigits_natural hword true).trans hwhole
  · next hneg =>
    rw [decide_eq_false hneg] at hwhole
    refine Eq.trans ?_ ((readDigits_natural hword false).trans hwhole)
    unfold readNumber
    split
    · next t ht =>
      exact absurd (Decimal.isDigit_of_mem_natural (ht ▸ List.mem_cons_self)) (by decide)
    · rfl

/-! ## All numbers -/

/-- The number is read back if its text alone is read. Integers always are; for other numbers it is
a property of the reader's rounding. -/
def Number.ReadsBack : Number → Prop
  | .integer _ => True
  | .float x finite => readNumber (numberLayout.text x) = .ok (.float x finite, [])

/-- Integers are read back, so the simplifier drops the condition for them (`ReadsBack`). -/
@[simp]
theorem Number.readsBack_integer (i : Integer) : (Number.integer i).ReadsBack :=
  trivial

/-- A number that reads back (`Number.ReadsBack`) is read from the front of a text, before anything
with which no number goes on. -/
theorem readNumber_text {n : Number} (hn : n.ReadsBack) {rest : List Char}
    (h : EndsNumber rest) : readNumber (n.text ++ rest) = .ok (n, rest) := by
  cases n with
  | integer i => exact readNumber_append h (readNumber_integer i)
  | float x finite => exact readNumber_append h hn

end WorkflowTemplates.Json
