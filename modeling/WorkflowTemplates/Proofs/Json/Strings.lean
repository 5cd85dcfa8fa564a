import WorkflowTemplates.Json.Reader

/-!
# Reading strings back

Every character is read back from the way in which it is written between quotes
(`readString_escapeChar`): as itself, behind a backslash, or as the four digits of its number.
-/

namespace WorkflowTemplates.Json

open Text.Hex (digit digitValue?)

/-- A hexadecimal digit takes one byte in UTF-8, so escapes are counted by digits. -/
theorem utf8Size_digit {n : Nat} (h : n < 16) : (digit n).utf8Size = 1 := by
  have hall : ∀ k ∈ List.range 16, (digit k).utf8Size = 1 := by decide
  exact hall n (List.mem_range.2 h)

/-- A digit inside an escape goes to its value, while more digits are to come
(`StringState.digits`). -/
theorem readString_digit {n : Nat} (h : n < 16) {left : Nat} (hleft : 1 < left) (v : Nat)
    (s : List Char) (p : Position) :
    readString (.digits none left (some v)) (digit n :: s) p
      = readString (.digits none (left - 1) (some (16 * v + n))) s (p.after (digit n)) := by
  rw [readString]
  simp only [Text.Hex.digitValue?_digit h, utf8Size_digit h, hleft, if_true, Option.bind_some,
    Option.map_some]

/-- The last digit of an escape completes its character, unless its number is that of a surrogate.
-/
theorem readString_lastDigit {n : Nat} (h : n < 16) {v : Nat} (hv : 16 * v + n < 0xd800)
    (s : List Char) (p : Position) :
    ∃ q, readString (.digits none 1 (some v)) (digit n :: s) p
      = (readString .plain s q).map fun (text, rest) =>
          (Char.ofNat (16 * v + n) :: text, rest) := by
  rw [readString]
  simp only [Text.Hex.digitValue?_digit h, utf8Size_digit h, Nat.lt_irrefl, if_false,
    Option.bind_some, Option.map_some]
  have hlow : isLowSurrogate (16 * v + n) = false := by simp [isLowSurrogate]; omega
  have hhigh : isHighSurrogate (16 * v + n) = false := by simp [isHighSurrogate]; omega
  simp only [hlow, hhigh, Bool.false_eq_true, if_false]
  exact ⟨_, rfl⟩

/-- A number below the surrogates is read back from its four digits (`unicodeEscape`). -/
theorem readString_unicodeEscape {n : Nat} (h : n < 0xd800) (s : List Char) (p : Position) :
    ∃ q, readString .plain (unicodeEscape n ++ s) p
      = (readString .plain s q).map fun (text, rest) => (Char.ofNat n :: text, rest) := by
  have hstart : readString .plain (unicodeEscape n ++ s) p
      = readString (.digits none 4 (some 0)) (digit (n / 4096 % 16) :: digit (n / 256 % 16)
          :: digit (n / 16 % 16) :: digit (n % 16) :: s) ((p.after '\\').after 'u') := rfl
  have hvalue : 16 * (16 * (16 * (16 * 0 + n / 4096 % 16) + n / 256 % 16) + n / 16 % 16) + n % 16
      = n := by omega
  have hlt : ∀ m : Nat, m % 16 < 16 := fun m => Nat.mod_lt m (by decide)
  rw [hstart, readString_digit (hlt _) (by decide), readString_digit (hlt _) (by decide),
    readString_digit (hlt _) (by decide)]
  obtain ⟨q, hq⟩ := readString_lastDigit (hlt n) (by rw [hvalue]; exact h) s _
  rw [hvalue] at hq
  exact ⟨q, hq⟩

/-- **Every character reads back** from the way in which `escapeChar` writes it, and the text behind
it is read as before. -/
theorem readString_escapeChar (c : Char) (s : List Char) (p : Position) :
    ∃ q, readString .plain (escapeChar c ++ s) p
      = (readString .plain s q).map fun (text, rest) => (c :: text, rest) := by
  unfold escapeChar
  split
  · next h => subst h; exact ⟨_, rfl⟩
  next hquote =>
  split
  · next h => subst h; exact ⟨_, rfl⟩
  next hbackslash =>
  iterate 5
    split
    · next h => subst h; exact ⟨_, rfl⟩
  split
  · next h =>
    have hn : c.toNat < 32 := UInt32.lt_iff_toNat_lt.1 h
    obtain ⟨q, hq⟩ := readString_unicodeEscape (n := c.toNat) (by omega) s p
    rw [Char.ofNat_toNat] at hq
    exact ⟨q, hq⟩
  · next h =>
    refine ⟨p.after c, ?_⟩
    rw [List.singleton_append, readString, if_neg hquote, if_neg hbackslash, if_neg h]

/-- What is written between quotes reads back, by induction over its characters. -/
theorem readString_content : ∀ (chars rest : List Char) (p : Position),
    ∃ q, readString .plain (chars.flatMap escapeChar ++ '"' :: rest) p = .ok (chars, ⟨rest, q⟩)
  | [], rest, p => ⟨p.after '"', rfl⟩
  | c :: chars, rest, p => by
    obtain ⟨q, hq⟩ := readString_escapeChar c (chars.flatMap escapeChar ++ '"' :: rest) p
    obtain ⟨r, hr⟩ := readString_content chars rest q
    refine ⟨r, ?_⟩
    rw [List.flatMap_cons, List.append_assoc, hq, hr]
    rfl

end WorkflowTemplates.Json
