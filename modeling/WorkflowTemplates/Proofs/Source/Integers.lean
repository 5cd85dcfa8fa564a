import WorkflowTemplates.Proofs.Source.Normal

/-!
# Integers with signs

An integer is spelled in decimal digits, or in digits of another radix behind its mark, with
underscores anywhere behind the first digit or the mark (`Spells`), and any signs may stand before
it (`Signed`). What is spelled is read as the number itself if it is below `2 ^ 63`, whatever its
sign is, and is refused as too large otherwise (`read_integer`). The bound is the same for both
signs, since the signs are applied to a number that was read without them; so no sign takes an
integer out of range, and the least integer cannot be written.
-/

namespace WorkflowTemplates.Literal

open Text (isBlank isDigit Stops stops_nil)
open Text.Hex (digitValue?)

variable {text rest digits : List Char} {radix m : Nat} {negative : Bool}

/-! ## Digits and underscores -/

/-- The marks of radices behind a leading zero, in either case, as in the integer literals of the
Python grammar. -/
def radixMarks : List (Char × Nat) :=
  [('x', 16), ('X', 16), ('o', 8), ('O', 8), ('b', 2), ('B', 2)]

/-- A digit of a radix, in either case: its value is below the radix. -/
def IsDigitOf (radix : Nat) (c : Char) : Prop :=
  ∃ d < radix, digitValue? c = some d

instance : DecidablePred (IsDigitOf radix) := fun c =>
  inferInstanceAs (Decidable (∃ d < radix, digitValue? c = some d))

/-- The value of digits in a radix, of which underscores are no part. -/
def spelledValue (radix : Nat) (digits : List Char) : Nat :=
  Decimal.radixValue radix 0 (digits.filter (· != '_'))

/-- A text without sign that spells a natural number: decimal digits, or a zero, a mark and digits
of its radix, with underscores between them. -/
inductive Spells : List Char → Nat → Prop
  | decimal {c : Char} {further : List Char} (first : isDigit c = true)
      (hfurther : ∀ d ∈ further, isDigit d = true ∨ d = '_') :
    Spells (c :: further) (spelledValue 10 (c :: further))
  | marked {mark : Char} {radix : Nat} {digits : List Char} (hmark : (mark, radix) ∈ radixMarks)
      (hdigits : ∀ d ∈ digits, IsDigitOf radix d ∨ d = '_') (hsome : ∃ d ∈ digits, d ≠ '_') :
    Spells ('0' :: mark :: digits) (spelledValue radix digits)

/-- What is spelled starts with a digit, be it the zero before a mark (`Spells`). -/
theorem Spells.exists_digit (h : Spells text m) : ∃ c t, text = c :: t ∧ isDigit c = true := by
  cases h with
  | @decimal c further first _ => exact ⟨c, further, rfl, first⟩
  | @marked mark radix digits _ _ _ => exact ⟨'0', mark :: digits, rfl, rfl⟩

/-- A listed mark is known to the reader (`radix?`), under the same radix. -/
theorem radix?_of_mem {mark : Char} (h : (mark, radix) ∈ radixMarks) : radix? mark = some radix := by
  have hall : ∀ p ∈ radixMarks, radix? p.1 = some p.2 := by decide
  exact hall _ h

/-- Digits of any radix are digits or letters, so they all belong to the number that is read. -/
theorem isRadixPart_of_digitValue? {c : Char} {d : Nat} (h : digitValue? c = some d) :
    (isDigit c || Text.isAsciiLetter c) = true := by
  have hle {a b e : Char} (hb : b.toNat ≤ e.toNat) (h : a ≤ c ∧ c ≤ b) : a ≤ c ∧ c ≤ e := by
    refine ⟨h.1, ?_⟩
    have hc : c.toNat ≤ b.toNat := h.2
    exact show c.toNat ≤ e.toNat by omega
  rw [Bool.or_eq_true]
  unfold digitValue? at h
  split at h
  · next hc => exact .inl (by simpa [isDigit] using hc)
  split at h
  · next hc =>
    have hz := hle (e := 'z') (by decide) hc
    exact .inr (by simp [Text.isAsciiLetter, hz])
  split at h
  · next hc =>
    have hz := hle (e := 'Z') (by decide) hc
    exact .inr (by simp [Text.isAsciiLetter, hz])
  · cases h

/-- Digits of a radix without underscores are digits of the radix only (`IsDigitOf`). -/
theorem isDigitOf_of_mem_filter (h : ∀ d ∈ digits, IsDigitOf radix d ∨ d = '_') :
    ∀ d ∈ digits.filter (· != '_'), IsDigitOf radix d := by
  intro d hd
  obtain ⟨hmem, hne⟩ := List.mem_filter.1 hd
  exact (h d hmem).resolve_right (bne_iff_ne.1 hne)

/-- Some digit is left without the underscores, so there is something to read. -/
theorem filter_underscore_ne_nil (h : ∃ d ∈ digits, d ≠ '_') :
    digits.filter (· != '_') ≠ [] := by
  obtain ⟨d, hd, hne⟩ := h
  exact List.ne_nil_of_mem (List.mem_filter.2 ⟨hd, bne_iff_ne.2 hne⟩)

/-- The whole of the digits behind a mark is read, and nothing is left but what `readInteger` says
of them. -/
theorem readRadix_digits (hdigits : ∀ d ∈ digits, IsDigitOf radix d ∨ d = '_') :
    readRadix radix digits =
      match Decimal.readInteger radix (digits.filter (· != '_')) with
      | .ok i => .ok (integer i, [])
      | .error e => .error (.radixInteger e) := by
  have hparts : ∀ d ∈ digits, (isDigit d || Text.isAsciiLetter d || d == '_') = true := by
    intro d hd
    obtain ⟨_, -, hvalue⟩ | rfl := hdigits d hd
    · rw [isRadixPart_of_digitValue? hvalue, Bool.true_or]
    · rfl
  have htake := (stops_nil _).takeWhile_run hparts
  have hdrop := (stops_nil _).dropWhile_run hparts
  rw [List.append_nil] at htake hdrop
  unfold readRadix
  dsimp only
  rewrite [htake, hdrop]
  rfl

/-- A fault that says that an integer is too large, in decimal or behind a mark, and no other fault.
-/
inductive TooLarge : ReadFault → Prop
  | decimal (text : String) : TooLarge (.decimalInteger text .tooLarge)
  | marked : TooLarge (.radixInteger .tooLarge)

/-- **What is spelled is read without sign** as the number, unless it is too large for a signed
integer of 64 bits (`TooLarge`). -/
theorem Spells.readUnsigned (h : Spells text m) :
    (m ≤ Decimal.maxInt64 → Literal.readUnsigned text = .ok (integer (Int64.ofInt m), []))
      ∧ (Decimal.maxInt64 < m → ∃ fault, Literal.readUnsigned text = .error fault
        ∧ TooLarge fault) := by
  cases h with
  | @decimal c further first hfurther =>
    have hdigits : ∀ d ∈ c :: further, isDigit d = true ∨ d = '_' := by
      rintro d (_ | ⟨_, hd⟩)
      · exact .inl first
      · exact hfurther d hd
    -- Underscores are dropped before the digits are read, and are no part of the value.
    have hkept : ∀ d ∈ (c :: further).filter (· != '_'), isDigit d = true := by
      intro d hd
      obtain ⟨hmem, hne⟩ := List.mem_filter.1 hd
      exact (hdigits d hmem).resolve_right (bne_iff_ne.1 hne)
    have hne : (c :: further).filter (· != '_') ≠ [] :=
      filter_underscore_ne_nil ⟨c, List.mem_cons_self, Text.ne_of_kind first rfl⟩
    have hread := readUnsigned_digits hdigits hne endsValue_nil
    rw [List.append_nil, ofNumeral_digits hkept endsValue_nil,
      Decimal.readInteger_digits hne (Decimal.exists_digitValue?_ten hkept)] at hread
    refine ⟨fun hle => ?_, fun hlt => ?_⟩
    · rw [hread, ← spelledValue, if_pos hle]
    · rw [hread, ← spelledValue, if_neg (Nat.not_le.2 hlt)]
      exact ⟨_, rfl, .decimal _⟩
  | @marked mark radix digits hmark hdigits hsome =>
    have hread : Literal.readUnsigned ('0' :: mark :: digits) = readRadix radix digits := by
      rw [Literal.readUnsigned, takeRadix?, radix?_of_mem hmark]
      rfl
    rw [readRadix_digits hdigits, Decimal.readInteger_digits (filter_underscore_ne_nil hsome)
      (isDigitOf_of_mem_filter hdigits)] at hread
    refine ⟨fun hle => ?_, fun hlt => ?_⟩
    · rw [hread, ← spelledValue, if_pos hle]
    · rw [hread, ← spelledValue, if_neg (Nat.not_le.2 hlt)]
      exact ⟨_, rfl, .marked⟩

/-! ## Signs -/

/-- A sign and the blanks behind it, any number of them. -/
structure Sign where
  minus : Bool
  gap : List Char
  blank : ∀ c ∈ gap, isBlank c = true

/-- A sign as it is written, with its blanks. -/
def Sign.written (sign : Sign) : List Char :=
  (if sign.minus then '-' else '+') :: sign.gap

/-- Whether signs make a minus: an odd number of minus signs does, however many plus signs there
are. -/
def isMinus (signs : List Sign) : Bool :=
  signs.countP (·.minus) % 2 == 1

/-- The factor that signs make, by which the number is multiplied. -/
def signFactor (signs : List Sign) : Int :=
  if isMinus signs then -1 else 1

/-- A further sign turns the signs around if it is a minus sign, which is the step of the induction
over signs. -/
theorem isMinus_cons (sign : Sign) (signs : List Sign) :
    isMinus (sign :: signs) = (sign.minus ^^ isMinus signs) := by
  unfold isMinus
  rw [List.countP_cons, Bool.eq_iff_iff]
  cases sign.minus with
  | true => simp; omega
  | false => simp

/-- Blanks behind a sign are skipped, outside comments. -/
theorem takeSigns_blanks {gap : List Char} (hgap : ∀ c ∈ gap, isBlank c = true) :
    takeSigns false negative (gap ++ rest) = takeSigns false negative rest := by
  induction gap with
  | nil => rfl
  | cons c gap ih =>
    have hc := hgap c List.mem_cons_self
    rw [List.cons_append, takeSigns, if_neg (Text.ne_of_kind hc rfl),
      if_neg (Text.ne_of_kind hc rfl), if_pos (by rw [hc]; rfl)]
    exact ih fun c hc => hgap c (List.mem_cons_of_mem _ hc)

/-- A sign is taken, and the blanks behind it; a minus sign turns `negative` around. -/
theorem takeSigns_sign (sign : Sign) :
    takeSigns false negative (sign.written ++ rest) = takeSigns false (negative ^^ sign.minus) rest := by
  rw [Sign.written, List.cons_append, takeSigns]
  cases sign.minus with
  | true => rw [if_pos rfl, if_pos rfl, takeSigns_blanks sign.blank, Bool.xor_true]
  | false =>
    rw [if_neg Bool.false_ne_true, if_neg (by decide), if_pos rfl, takeSigns_blanks sign.blank,
      Bool.xor_false]

/-- Signs before a number are taken one by one: each minus sign turns the sign around, and together
they come to `isMinus`. -/
theorem takeSigns_signs {c : Char} (hc : isDigit c = true) (signs : List Sign) :
    takeSigns false negative (signs.flatMap Sign.written ++ c :: rest)
      = (negative ^^ isMinus signs, c :: rest) := by
  induction signs generalizing negative with
  | nil =>
    rw [List.flatMap_nil, List.nil_append, takeSigns_digit hc, isMinus, List.countP_nil]
    exact congrArg (·, c :: rest) (Bool.xor_false negative).symm
  | cons sign signs ih =>
    rw [List.flatMap_cons, List.append_assoc, takeSigns_sign, ih, isMinus_cons, Bool.xor_assoc]

/-- A number in range (`hm`) has the sign that is put before it, and stays in range. -/
theorem toInt_signed (hm : m ≤ Decimal.maxInt64) (signs : List Sign) :
    (if isMinus signs then -Int64.ofInt m else Int64.ofInt m).toInt = signFactor signs * m := by
  unfold Decimal.maxInt64 at hm
  unfold signFactor
  cases isMinus signs with
  | true =>
    rw [if_pos rfl, if_pos rfl, ← Int64.ofInt_neg, Int64.toInt_ofInt_of_le (by omega) (by omega)]
    omega
  | false =>
    rw [if_neg Bool.false_ne_true, if_neg Bool.false_ne_true,
      Int64.toInt_ofInt_of_le (by omega) (by omega)]
    omega

/-- An integer that is read without sign can have either sign: its negation does not overflow, since
it is not negative. -/
theorem toInt_neg_of_readUnsigned {s : List Char} {i : Int64}
    (h : readUnsigned s = .ok (integer i, rest)) : (-i).toInt = -i.toInt := by
  cases readUnsigned_numeric h with
  | integer hi =>
    have hlt := i.toInt_lt
    rw [Int64.toInt_neg]
    exact Int.bmod_eq_of_le (by omega) (by omega)

/-! ## Whole texts -/

/-- Signs before a number are read as its sign, and what the number is read as does not depend on
them. -/
theorem readSigned_signs {c : Char} {t : List Char} (hc : isDigit c = true) (signs : List Sign) :
    readSigned (signs.flatMap Sign.written ++ c :: t)
      = (readUnsigned (c :: t)).map fun (l, rest) =>
        (if isMinus signs then negated l else l, rest) := by
  rw [readSigned, takeSigns_signs hc, Bool.false_xor]

/-- A text that starts with signs and a digit starts with a sign or a digit, by which the reader
knows a number. -/
theorem exists_start {c : Char} {t : List Char} (hc : isDigit c = true) (signs : List Sign) :
    ∃ b s, signs.flatMap Sign.written ++ c :: t = b :: s
      ∧ (b = '-' ∨ b = '+' ∨ isDigit b = true) := by
  cases signs with
  | nil => exact ⟨c, t, rfl, .inr (.inr hc)⟩
  | cons sign signs =>
    rw [List.flatMap_cons, Sign.written]
    cases sign.minus with
    | true => exact ⟨'-', _, rfl, .inl rfl⟩
    | false => exact ⟨'+', _, rfl, .inr (.inl rfl)⟩

/-- A text that is nothing but a number with signs is read as the number, or refused as the number
is, by `read` as by `readSigned`. -/
theorem read_of_readSigned {s : List Char}
    (hs : ∃ c t, s = c :: t ∧ (c = '-' ∨ c = '+' ∨ isDigit c = true)) :
    (∀ i, readSigned s = .ok (integer i, []) → read s = .ok (integer i))
      ∧ ∀ fault, readSigned s = .error fault → read s = .error fault := by
  obtain ⟨c, t, rfl, hc⟩ := hs
  have hvalue : readValue (2 * (c :: t).length + 2) (c :: t) = readNumber (c :: t) :=
    readValue_number hc
  refine ⟨fun i h => ?_, fun fault h => ?_⟩
  · have hnumber : readNumber (c :: t) = .ok (integer i, []) := by
      rw [readNumber, h]
      rfl
    rw [read, hvalue, hnumber]
    rfl
  · have hnumber : readNumber (c :: t) = .error fault := by
      rw [readNumber, h]
      rfl
    rw [read, hvalue, hnumber]
    rfl

/-- **Integers are read exactly.** A text that spells a natural number (`Spells`), behind any signs,
is read as the number with the sign that the signs make if the number is below `2 ^ 63`, and is
refused as too large otherwise, whatever the signs are. An integer that is read without sign, from
whatever text, can have either sign without an overflow. -/
theorem read_integer (h : Spells text m) (signs : List Sign) :
    (m ≤ 2 ^ 63 - 1 → ∃ i : Int64, i.toInt = signFactor signs * m
      ∧ read (signs.flatMap Sign.written ++ text) = .ok (integer i))
      ∧ (2 ^ 63 ≤ m → ∃ fault, TooLarge fault
        ∧ read (signs.flatMap Sign.written ++ text) = .error fault)
      ∧ ∀ s rest i, readUnsigned s = .ok (integer i, rest) → (-i).toInt = -i.toInt := by
  obtain ⟨hfits, htoo⟩ := h.readUnsigned
  obtain ⟨c, t, rfl, hc⟩ := h.exists_digit
  obtain ⟨hok, herror⟩ := read_of_readSigned (exists_start (t := t) hc signs)
  refine ⟨fun hm => ?_, fun hm => ?_, fun s rest i => toInt_neg_of_readUnsigned⟩
  · refine ⟨_, toInt_signed hm signs, hok _ ?_⟩
    rw [readSigned_signs hc, hfits hm]
    cases isMinus signs <;> rfl
  · obtain ⟨fault, hfault, hlarge⟩ := htoo (Nat.lt_of_lt_of_le (by decide) hm)
    refine ⟨fault, hlarge, herror fault ?_⟩
    rw [readSigned_signs hc, hfault]
    rfl

/-- A minus sign with a blank behind it, as one may write between signs. -/
def spacedMinus : Sign := ⟨true, [' '], List.forall_mem_singleton.2 rfl⟩

/-- Three minus signs make a minus; the least integer of 64 bits cannot be written. -/
theorem signed_integers_read :
    (∃ i : Int64, i.toInt = -5 ∧ read "- - - 0b1_01".toList = .ok (integer i))
      ∧ ∃ fault, TooLarge fault ∧ read "- 9223372036854775808".toList = .error fault := by
  have hbinary : Spells ['0', 'b', '1', '_', '0', '1'] (spelledValue 2 ['1', '_', '0', '1']) :=
    .marked (by decide) (Text.forall_mem_of_all (by decide)) ⟨'1', by decide, by decide⟩
  have hleast : Spells "9223372036854775808".toList (spelledValue 10 "9223372036854775808".toList) :=
    .decimal (by decide) (Text.forall_mem_of_all (by decide))
  exact ⟨(read_integer hbinary [spacedMinus, spacedMinus, spacedMinus]).1 (by decide),
    (read_integer hleast [spacedMinus]).2.1 (by decide)⟩

end WorkflowTemplates.Literal
