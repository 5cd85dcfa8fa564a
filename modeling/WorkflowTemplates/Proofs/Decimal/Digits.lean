import WorkflowTemplates.Decimal.Integer
import WorkflowTemplates.Proofs.Outcome
import WorkflowTemplates.Text.Letter

/-!
# Written natural numbers

The decimal text of a natural number is a run of digits whose value is the number
(`Nat.ofDigitChars_ten_toDigits`), and which starts with a zero only if the number is zero. A value
that is read digit by digit grows on the way, so no bound of the number is passed before its end
(`le_radixValue`): digits of any radix are read as their value if it is in range, and are refused
otherwise (`readInteger_digits`), and reading a written number gives it back
(`readInteger_natural`). What is read from digits is no negative integer (`readInteger_nonneg`).
-/

namespace WorkflowTemplates.Decimal

/-- A written number (`natural`) consists of decimal digits. -/
theorem isDigit_of_mem_natural {n : Nat} {c : Char} (h : c ∈ natural n) :
    Text.isDigit c = true := by
  have hc := Nat.isDigit_of_mem_toDigits (by decide) (Nat.le_refl 10) h
  simpa [Char.isDigit, Text.isDigit, Char.le_def] using hc

/-- A written number (`natural`) has at least one digit. -/
theorem natural_ne_nil (n : Nat) : natural n ≠ [] := Nat.toDigits_ne_nil

/-- A written number that is not zero starts with no zero, so it is no number with a radix mark. -/
theorem head?_natural {n : Nat} (h : 0 < n) : (natural n).head? ≠ some '0' := by
  induction n using Nat.strongRecOn with
  | ind n ih =>
    unfold natural
    rw [Nat.toDigits_eq_if (by decide)]
    split
    · next hn =>
      have hdigits : ∀ k < 10, 0 < k → [Nat.digitChar k].head? ≠ some '0' := by decide
      exact hdigits n hn h
    · have hhead := ih (n / 10) (by omega) (by omega)
      obtain ⟨c, t, hc⟩ := List.exists_cons_of_ne_nil (natural_ne_nil (n / 10))
      rw [hc] at hhead
      rw [show Nat.toDigits 10 (n / 10) = c :: t from hc]
      exact hhead

/-- A hexadecimal digit (`Text.Hex.digitValue?`) is less than sixteen. -/
theorem digitValue?_lt {c : Char} {d : Nat} (h : Text.Hex.digitValue? c = some d) : d < 16 := by
  unfold Text.Hex.digitValue? at h
  split at h
  · next hc =>
    cases h
    have hu : c.toNat ≤ 0x39 := hc.2
    have hzero : '0'.toNat = 0x30 := rfl
    omega
  split at h
  · next hc =>
    cases h
    have hu : c.toNat ≤ 0x66 := hc.2
    have ha : 'a'.toNat = 0x61 := rfl
    omega
  split at h
  · next hc =>
    cases h
    have hu : c.toNat ≤ 0x46 := hc.2
    have ha : 'A'.toNat = 0x41 := rfl
    omega
  · cases h

/-- The value of `digits` in the given radix, behind digits of the value `acc`; a character that is
no digit counts as zero. -/
def radixValue (radix acc : Nat) (digits : List Char) : Nat :=
  digits.foldl (fun n c => radix * n + (Text.Hex.digitValue? c).getD 0) acc

/-- The value of digits is no less than the value `n` before them, since the radix is positive. -/
theorem le_radixValue {radix : Nat} (h : 0 < radix) (n : Nat) (digits : List Char) :
    n ≤ radixValue radix n digits := by
  induction digits generalizing n with
  | nil => exact Nat.le_refl n
  | cons c digits ih =>
    have hle : n ≤ radix * n := Nat.le_mul_of_pos_left n h
    exact Nat.le_trans (by omega) (ih (radix * n + (Text.Hex.digitValue? c).getD 0))

/-- The value of decimal digits is no less than the value `n` before them either
(`Nat.ofDigitChars`). -/
theorem le_ofDigitChars (digits : List Char) (n : Nat) : n ≤ Nat.ofDigitChars 10 digits n := by
  induction digits generalizing n with
  | nil => exact Nat.le_of_eq Nat.ofDigitChars_nil.symm
  | cons c digits ih =>
    rw [Nat.ofDigitChars_cons]
    have := ih (10 * n + (c.toNat - '0'.toNat))
    omega

/-- The digits of a written number give its value back (`Nat.ofDigitChars_ten_toDigits`). -/
theorem ofDigitChars_natural (n : Nat) : Nat.ofDigitChars 10 (natural n) 0 = n :=
  Nat.ofDigitChars_ten_toDigits

/-- The value of a decimal digit is less than ten. -/
theorem toNat_sub_lt_ten {c : Char} (h : Text.isDigit c = true) : c.toNat - '0'.toNat < 10 := by
  simp only [Text.isDigit, Bool.and_eq_true, decide_eq_true_eq] at h
  have hu : c.toNat ≤ 0x39 := h.2
  have hzero : '0'.toNat = 0x30 := rfl
  omega

/-- The value of a decimal digit is the same among hexadecimal digits (`Text.Hex.digitValue?`). -/
theorem digitValue?_of_isDigit {c : Char} (h : Text.isDigit c = true) :
    Text.Hex.digitValue? c = some (c.toNat - '0'.toNat) := by
  simp only [Text.isDigit, Bool.and_eq_true, decide_eq_true_eq] at h
  exact if_pos h

/-- Digits of the radix whose value is at most `limit` are read as their value: no value on the way
passes the limit, by `le_radixValue`. -/
theorem magnitude_eq {radix limit acc : Nat} (overflow : IntegerError) {digits : List Char}
    (h : ∀ c ∈ digits, ∃ d < radix, Text.Hex.digitValue? c = some d)
    (hlimit : radixValue radix acc digits ≤ limit) :
    magnitude radix limit overflow acc digits = .ok (radixValue radix acc digits) := by
  induction digits generalizing acc with
  | nil => rfl
  | cons c digits ih =>
    obtain ⟨d, hd, hvalue⟩ := h c List.mem_cons_self
    have hcons : radixValue radix acc (c :: digits)
        = radixValue radix (radix * acc + d) digits := by
      rw [radixValue, List.foldl_cons, hvalue]
      rfl
    rw [hcons] at hlimit ⊢
    have hfirst := Nat.le_trans (le_radixValue (by omega) (radix * acc + d) digits) hlimit
    rw [magnitude, hvalue]
    dsimp only
    rw [if_neg (by omega), if_neg (by omega)]
    exact ih (fun c hc => h c (List.mem_cons_of_mem _ hc)) hlimit

/-- Digits of the radix whose value passes `limit` are an `overflow`, whatever value `acc` within it
they start from. -/
theorem magnitude_eq_error {radix limit acc : Nat} (overflow : IntegerError) {digits : List Char}
    (h : ∀ c ∈ digits, ∃ d < radix, Text.Hex.digitValue? c = some d) (hacc : acc ≤ limit)
    (hlimit : limit < radixValue radix acc digits) :
    magnitude radix limit overflow acc digits = .error overflow := by
  induction digits generalizing acc with
  | nil => exact absurd hlimit (Nat.not_lt.2 hacc)
  | cons c digits ih =>
    obtain ⟨d, hd, hvalue⟩ := h c List.mem_cons_self
    rw [magnitude, hvalue]
    dsimp only
    rw [if_neg (by omega)]
    split
    · rfl
    · next hfirst =>
      refine ih (fun c hc => h c (List.mem_cons_of_mem _ hc)) (Nat.le_of_not_lt hfirst) ?_
      rwa [radixValue, List.foldl_cons, hvalue] at hlimit

/-- A text of digits of any radix, at least one, is read as their value if a signed 64-bit integer
holds it, and is too large otherwise. -/
theorem readInteger_digits {radix : Nat} {digits : List Char} (hne : digits ≠ [])
    (h : ∀ c ∈ digits, ∃ d < radix, Text.Hex.digitValue? c = some d) :
    readInteger radix digits =
      if radixValue radix 0 digits ≤ maxInt64 then .ok (Int64.ofInt (radixValue radix 0 digits))
      else .error .tooLarge := by
  have hunsigned : readInteger radix digits
      = (magnitude radix maxInt64 .tooLarge 0 digits).map fun n => Int64.ofInt n := by
    have hsign (c : Char) (hc : Text.Hex.digitValue? c = none) : c ∉ digits := by
      intro hmem
      obtain ⟨d, -, hd⟩ := h c hmem
      rw [hc] at hd
      cases hd
    unfold readInteger
    split
    · exact absurd rfl hne
    · exact absurd List.mem_cons_self (hsign '+' (by decide))
    · exact absurd List.mem_cons_self (hsign '-' (by decide))
    · exact absurd List.mem_cons_self (hsign '+' (by decide))
    · exact absurd List.mem_cons_self (hsign '-' (by decide))
    · rfl
  rw [hunsigned]
  split
  · next hle =>
    rw [magnitude_eq .tooLarge h hle]
    rfl
  · next hlt =>
    rw [magnitude_eq_error .tooLarge h (Nat.zero_le _) (Nat.lt_of_not_le hlt)]
    rfl

/-- The value of decimal digits (`radixValue`) is the one that the library gives them. -/
theorem radixValue_ten {digits : List Char} (h : ∀ c ∈ digits, Text.isDigit c = true)
    (acc : Nat) : radixValue 10 acc digits = Nat.ofDigitChars 10 digits acc := by
  induction digits generalizing acc with
  | nil => exact Nat.ofDigitChars_nil.symm
  | cons c digits ih =>
    have hc := digitValue?_of_isDigit (h c List.mem_cons_self)
    rw [Nat.ofDigitChars_cons, ← ih fun c hc => h c (List.mem_cons_of_mem _ hc), radixValue,
      List.foldl_cons, hc]
    rfl

/-- Decimal digits are digits of the radix ten, as `readInteger_digits` wants them. -/
theorem exists_digitValue?_ten {digits : List Char} (h : ∀ c ∈ digits, Text.isDigit c = true) :
    ∀ c ∈ digits, ∃ d < 10, Text.Hex.digitValue? c = some d := fun c hc =>
  ⟨_, toNat_sub_lt_ten (h c hc), digitValue?_of_isDigit (h c hc)⟩

/-- A written number is read back (`readInteger`), if a signed 64-bit integer holds it. -/
theorem readInteger_natural {n : Nat} (h : n ≤ maxInt64) :
    readInteger 10 (natural n) = .ok (Int64.ofInt n) := by
  have hdigits : ∀ c ∈ natural n, Text.isDigit c = true := fun c hc => isDigit_of_mem_natural hc
  have hvalue : radixValue 10 0 (natural n) = n :=
    (radixValue_ten hdigits 0).trans (ofDigitChars_natural n)
  rw [readInteger_digits (natural_ne_nil n) (exists_digitValue?_ten hdigits), hvalue, if_pos h]

/-! ## What is read -/

section
variable {radix limit : Nat} {overflow : IntegerError}

/-- Digits that are read (`magnitude`) stand for no value beyond the `limit`, if they start within
it. -/
theorem magnitude_le {s : List Char} {acc n : Nat} (hacc : acc ≤ limit)
    (h : magnitude radix limit overflow acc s = .ok n) : n ≤ limit := by
  induction s generalizing acc with
  | nil =>
    cases h
    exact hacc
  | cons c s ih =>
    rw [magnitude] at h
    split at h
    · cases h
    split at h
    · cases h
    split at h
    · cases h
    · next hlimit => exact ih (Nat.le_of_not_lt hlimit) h

/-- What digits within `maxInt64` stand for is no negative integer, so no bit is lost in the sign.
-/
theorem toInt_ofInt_magnitude {s : List Char} {n : Nat}
    (h : magnitude radix maxInt64 .tooLarge 0 s = .ok n) : 0 ≤ (Int64.ofInt n).toInt := by
  have hle := magnitude_le (Nat.zero_le maxInt64) h
  unfold maxInt64 at hle
  rw [Int64.toInt_ofInt_of_le (by omega) (by omega)]
  exact Int.natCast_nonneg n

/-- Digits without a minus sign before them are read as no negative integer. -/
theorem readInteger_nonneg {s : List Char} (hs : s.head? ≠ some '-') {i : Int64}
    (h : readInteger radix s = .ok i) : 0 ≤ i.toInt := by
  unfold readInteger at h
  split at h
  · cases h
  · cases h
  · cases h
  · obtain ⟨_, hn, rfl⟩ := map_eq_ok.1 h
    obtain ⟨n, hmagnitude, ⟨⟩⟩ := bind_eq_ok.1 hn
    exact toInt_ofInt_magnitude hmagnitude
  · exact absurd rfl hs
  · obtain ⟨_, hn, rfl⟩ := map_eq_ok.1 h
    obtain ⟨n, hmagnitude, ⟨⟩⟩ := bind_eq_ok.1 hn
    exact toInt_ofInt_magnitude hmagnitude

end

end WorkflowTemplates.Decimal
