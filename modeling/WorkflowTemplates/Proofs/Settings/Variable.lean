import WorkflowTemplates.Proofs.Decimal.Digits
import WorkflowTemplates.Settings.Load

/-!
# Texts of variables

The text of a variable is read as a word for a truth value, an integer or a floating-point number if
it is one, and written again where a setting is a text. So it arrives as the word in lower case, as
the integer or the number in plain decimal notation, or else as it stands (`Arrives`,
`arrives_iff`). Words and numbers consist of digits, ASCII letters, signs and points
(`isNumberChar_of_readFloat`), so a text with any other character, such as a path, the name of an
image with its tag, or several words, arrives as it stands (`arrives_unchanged`).
-/

namespace WorkflowTemplates

/-- The characters of words and numbers: digits, ASCII letters, signs and the point. The words are
those for truth values, infinity and what is not a number; the letters include the exponent. -/
def isNumberChar (c : Char) : Bool :=
  Text.isDigit c || Text.isAsciiLetter c || c == '+' || c == '-' || c == '.'

theorem isNumberChar_of_isDigit {c : Char} (h : Text.isDigit c = true) : isNumberChar c = true := by
  simp [isNumberChar, h]

theorem isNumberChar_of_isAsciiLetter {c : Char} (h : Text.isAsciiLetter c = true) :
    isNumberChar c = true := by
  simp [isNumberChar, h]

/-! ## Words -/

/-- Only ASCII letters, and the Kelvin sign, have an ASCII letter as their lower case (Unicode maps
U+212A to `k`, which `hk` excludes). -/
theorem isAsciiLetter_of_toLower {c : Char} (h : Text.isAsciiLetter (Text.toLower c) = true)
    (hk : Text.toLower c ≠ 'k') : Text.isAsciiLetter c = true := by
  unfold Text.toLower at h hk
  split at h
  · next hupper => simp [Text.isAsciiLetter, hupper]
  · next hupper =>
    rw [if_neg hupper] at hk
    split at h
    · next hkelvin => exact absurd (if_pos hkelvin) hk
    · exact h

/-- The characters of a text that is a word in lower case are letters, if the word has no `k` in it.
-/
theorem isNumberChar_of_lowerCase {s word : List Char} (h : Text.lowerCase s = word)
    (hword : (word.all fun c => Text.isAsciiLetter c && c != 'k') = true) :
    ∀ c ∈ s, isNumberChar c = true := by
  intro c hc
  have hmem : Text.toLower c ∈ word := h ▸ List.mem_map_of_mem hc
  have hlower := List.all_eq_true.1 hword _ hmem
  rw [Bool.and_eq_true, bne_iff_ne] at hlower
  exact isNumberChar_of_isAsciiLetter (isAsciiLetter_of_toLower hlower.1 hlower.2)

/-! ## Numbers -/

/-- A digit with a value below ten is a decimal digit: the letters of `digitValue?` have values from
ten on. -/
theorem isDigit_of_digitValue? {c : Char} {d : Nat} (h : Text.Hex.digitValue? c = some d)
    (hd : d < 10) : Text.isDigit c = true := by
  unfold Text.Hex.digitValue? at h
  split at h
  · next hc => simp [Text.isDigit, hc]
  split at h
  · cases h
    omega
  split at h
  · cases h
    omega
  · cases h

/-- What has a value in decimal (`magnitude` in base 10) consists of digits. -/
theorem isNumberChar_of_magnitude {limit acc n : Nat} {overflow : Decimal.IntegerError}
    {s : List Char} (h : Decimal.magnitude 10 limit overflow acc s = .ok n) :
    ∀ c ∈ s, isNumberChar c = true := by
  induction s generalizing acc with
  | nil => exact fun c hc => nomatch hc
  | cons c s ih =>
    rw [Decimal.magnitude] at h
    split at h
    · cases h
    next d hd =>
    split at h
    · cases h
    next hten =>
    split at h
    · cases h
    have hdigit := isDigit_of_digitValue? hd (Nat.lt_of_not_le hten)
    exact List.forall_mem_cons.2 ⟨isNumberChar_of_isDigit hdigit, ih h⟩

/-- An integer consists of digits behind a sign, so all its characters are `isNumberChar`. -/
theorem isNumberChar_of_readInteger {s : List Char} {i : Int64}
    (h : Decimal.readInteger 10 s = .ok i) : ∀ c ∈ s, isNumberChar c = true := by
  unfold Decimal.readInteger at h
  split at h
  · cases h
  · cases h
  · cases h
  · obtain ⟨_, hcast, -⟩ := map_eq_ok.1 h
    obtain ⟨n, hn, -⟩ := bind_eq_ok.1 hcast
    exact List.forall_mem_cons.2 ⟨by decide, isNumberChar_of_magnitude hn⟩
  · obtain ⟨_, hcast, -⟩ := map_eq_ok.1 h
    obtain ⟨n, hn, -⟩ := bind_eq_ok.1 hcast
    exact List.forall_mem_cons.2 ⟨by decide, isNumberChar_of_magnitude hn⟩
  · obtain ⟨_, hcast, -⟩ := map_eq_ok.1 h
    obtain ⟨n, hn, -⟩ := bind_eq_ok.1 hcast
    exact isNumberChar_of_magnitude hn

/-- A sign is a character of numbers, so what matters stands behind it (`takeSign`). -/
theorem isNumberChar_of_takeSign {s : List Char}
    (h : ∀ c ∈ (Decimal.takeSign s).2, isNumberChar c = true) : ∀ c ∈ s, isNumberChar c = true := by
  unfold Decimal.takeSign at h
  split at h
  · exact List.forall_mem_cons.2 ⟨by decide, h⟩
  · exact List.forall_mem_cons.2 ⟨by decide, h⟩
  · exact h

/-- The digits at the front of a text leave the rest to look at: they are `isNumberChar` themselves.
-/
theorem isNumberChar_of_dropWhile {s : List Char}
    (h : ∀ c ∈ s.dropWhile Text.isDigit, isNumberChar c = true) :
    ∀ c ∈ s, isNumberChar c = true := by
  rw [← List.takeWhile_append_dropWhile (p := Text.isDigit) (l := s), List.forall_mem_append]
  exact ⟨fun c hc => isNumberChar_of_isDigit (List.all_eq_true.1 List.all_takeWhile c hc), h⟩

theorem isNumberChar_of_readExponent? {s : List Char} {e : Int}
    (h : Decimal.readExponent? s = some e) : ∀ c ∈ s, isNumberChar c = true := by
  cases s with
  | nil => exact fun c hc => nomatch hc
  | cons c s =>
    refine List.forall_mem_cons.2 ?_
    rw [Decimal.readExponent?] at h
    dsimp only at h
    split at h
    · next hexponent =>
      simp only [Bool.and_eq_true, Bool.or_eq_true, beq_iff_eq, List.all_eq_true] at hexponent
      obtain ⟨⟨hletter, -⟩, hdigits⟩ := hexponent
      refine ⟨?_, isNumberChar_of_takeSign fun d hd => isNumberChar_of_isDigit (hdigits d hd)⟩
      obtain rfl | rfl := hletter <;> decide
    · cases h

theorem isNumberChar_of_readUnsigned? {negative : Bool} {s : List Char} {x : Binary64}
    (h : Decimal.readUnsigned? negative s = some x) : ∀ c ∈ s, isNumberChar c = true := by
  refine isNumberChar_of_dropWhile ?_
  unfold Decimal.readUnsigned? at h
  generalize s.dropWhile Text.isDigit = rest at h
  split at h
  next fraction rest' hrest =>
  dsimp only at h
  split at h
  · cases h
  obtain ⟨e, he, -⟩ := Option.map_eq_some_iff.1 h
  have hchars := isNumberChar_of_readExponent? he
  split at hrest
  · cases hrest
    exact List.forall_mem_cons.2 ⟨by decide, isNumberChar_of_dropWhile hchars⟩
  · cases hrest
    exact hchars

/-- A floating-point number is a word, or digits with a sign, a point and an exponent, by the cases
in which `readFloat` succeeds. -/
theorem isNumberChar_of_readFloat {s : List Char} {x : Binary64}
    (h : Decimal.readFloat s = .ok x) : ∀ c ∈ s, isNumberChar c = true := by
  unfold Decimal.readFloat at h
  split at h
  · cases h
  refine isNumberChar_of_takeSign ?_
  generalize Decimal.takeSign s = signed at h ⊢
  obtain ⟨negative, t⟩ := signed
  dsimp only at h ⊢
  have hword {word : String} (heq : (String.ofList (Text.lowerCase t) == word) = true) :
      Text.lowerCase t = word.toList := by
    rw [← beq_iff_eq.1 heq, String.toList_ofList]
  split at h
  · next hinfinite =>
    obtain hinf | hinfinity := Bool.or_eq_true _ _ ▸ hinfinite
    · exact isNumberChar_of_lowerCase (hword hinf) (by decide)
    · exact isNumberChar_of_lowerCase (hword hinfinity) (by decide)
  split at h
  · next hnan => exact isNumberChar_of_lowerCase (hword hnan) (by decide)
  split at h
  · next hunsigned => exact isNumberChar_of_readUnsigned? hunsigned
  · cases h

/-! ## What arrives -/

namespace Settings

/-- The words for truth values, in lower case, in which `variableSetting` compares them. -/
def truthWords : List String :=
  ["true", "false"]

/-- What the text of a variable arrives as where a setting is a text. The cases are in the order in
which `variableSetting` tries them, each with what the ones before it refused: a word for a truth
value, an integer, a floating-point number, and otherwise the text. -/
inductive Arrives (text : String) : String → Prop
  | word (h : Setting.lowerName text ∈ truthWords) : Arrives text (Setting.lowerName text)
  | integer {i : Int64} (hword : Setting.lowerName text ∉ truthWords)
      (h : Decimal.readInteger 10 text.toList = .ok i) :
      Arrives text (String.ofList (Decimal.integer i.toInt))
  | float {x : Binary64} (hword : Setting.lowerName text ∉ truthWords)
      (hinteger : ∀ i, Decimal.readInteger 10 text.toList ≠ .ok i)
      (h : Decimal.readFloat text.toList = .ok x) : Arrives text (Setting.floatText x)
  | unchanged (hword : Setting.lowerName text ∉ truthWords)
      (hinteger : ∀ i, Decimal.readInteger 10 text.toList ≠ .ok i)
      (hfloat : ∀ x, Decimal.readFloat text.toList ≠ .ok x) : Arrives text text

theorem variableSetting_of_mem {text : String} (h : Setting.lowerName text ∈ truthWords) :
    (variableSetting text).toText? = some (Setting.lowerName text) := by
  simp only [truthWords, List.mem_cons, List.not_mem_nil, or_false] at h
  unfold variableSetting
  obtain h | h := h <;> rw [h] <;> rfl

theorem variableSetting_of_not_mem {text : String} (h : Setting.lowerName text ∉ truthWords) :
    variableSetting text =
      match Decimal.readInteger 10 text.toList, Decimal.readFloat text.toList with
      | .ok i, _ => .integer i
      | .error _, .ok x => .float x
      | .error _, .error _ => .text text := by
  simp only [truthWords, List.mem_cons, List.not_mem_nil, or_false, not_or] at h
  unfold variableSetting
  dsimp only
  rewrite [if_neg h.1, if_neg h.2]
  rfl

/-- Every text arrives as what the setting of the variable is written as, by `toText?`, and there
always is such a text. -/
theorem exists_arrives (text : String) :
    ∃ s, (variableSetting text).toText? = some s ∧ Arrives text s := by
  by_cases hword : Setting.lowerName text ∈ truthWords
  · exact ⟨_, variableSetting_of_mem hword, .word hword⟩
  rw [variableSetting_of_not_mem hword]
  cases hinteger : Decimal.readInteger 10 text.toList with
  | ok i => exact ⟨_, rfl, .integer hword hinteger⟩
  | error e =>
    have hnone : ∀ i, Decimal.readInteger 10 text.toList ≠ .ok i := by simp [hinteger]
    cases hfloat : Decimal.readFloat text.toList with
    | ok x => exact ⟨_, rfl, .float hword hnone hfloat⟩
    | error e' => exact ⟨_, rfl, .unchanged hword hnone (by simp [hfloat])⟩

/-- What arrives is what the setting of the variable is written as, so it is one text: the relation
`Arrives` is the graph of a function. -/
theorem arrives_iff {text s : String} :
    Arrives text s ↔ (variableSetting text).toText? = some s := by
  constructor
  · intro h
    cases h with
    | word h => exact variableSetting_of_mem h
    | integer hword h =>
      rw [variableSetting_of_not_mem hword, h]
      rfl
    | float hword hinteger h =>
      obtain ⟨e, he⟩ := exists_eq_error hinteger
      rw [variableSetting_of_not_mem hword, he, h]
      rfl
    | unchanged hword hinteger hfloat =>
      obtain ⟨e, he⟩ := exists_eq_error hinteger
      obtain ⟨e', he'⟩ := exists_eq_error hfloat
      rw [variableSetting_of_not_mem hword, he, he']
      rfl
  · intro h
    obtain ⟨t, htext, ht⟩ := exists_arrives text
    rw [h] at htext
    exact Option.some.inj htext ▸ ht

/-- A text with a character that is in no word and no number (`hforeign`) arrives as it stands. -/
theorem arrives_unchanged {text : String} {c : Char} (hc : c ∈ text.toList)
    (hforeign : isNumberChar c = false) : Arrives text text := by
  refine .unchanged ?_ ?_ ?_
  · intro hword
    have hchars : ∀ word ∈ truthWords,
        (word.toList.all fun l => Text.isAsciiLetter l && l != 'k') = true := by decide
    have := isNumberChar_of_lowerCase String.toList_ofList.symm (hchars _ hword) c hc
    rw [hforeign] at this
    cases this
  · intro i hi
    exact Bool.false_ne_true (hforeign.symm.trans (isNumberChar_of_readInteger hi c hc))
  · intro x hx
    exact Bool.false_ne_true (hforeign.symm.trans (isNumberChar_of_readFloat hx c hc))

end Settings

end WorkflowTemplates
