import WorkflowTemplates.Proofs.Source.Literal
import WorkflowTemplates.Proofs.Source.StringReader
import WorkflowTemplates.Proofs.Text.Runs

/-!
# Reading written scalars

Strings, integers and the names of values are read off the front of a text as they are written
(`readStrings_quoted`, `readNumber_integer`, `readName_named`), if the text behind them goes on
with no value (`EndsValue`): then it starts with a delimiter, or is empty.
-/

namespace WorkflowTemplates.Literal

open Source (isClosing isQuote)
open Text (isBlank isDigit isLetter isWordChar Stops)

/-! ## The ends of values -/

/-- A text does not go on with the value before it: it is empty, or starts with a delimiter
(`isDelimiter`). -/
def EndsValue (rest : List Char) : Prop :=
  ∀ c t, rest = c :: t → isDelimiter c = true

/-- No text goes on, so a value may end a text (`EndsValue`). -/
theorem endsValue_nil : EndsValue [] := nofun

/-- A delimiter does not go on, so a value may end before it (`EndsValue`). -/
theorem endsValue_cons {c : Char} (h : isDelimiter c = true) (t : List Char) :
    EndsValue (c :: t) := by
  rintro _ _ ⟨⟩
  exact h

/-- The delimiters of `isDelimiter`, as a list over which one can decide. -/
def delimiters : List Char :=
  [',', ':', '|', '=', ')', ']', '}']

/-- The delimiters are listed, so what is decided of the list holds of them all. -/
theorem mem_delimiters {c : Char} (h : isDelimiter c = true) : c ∈ delimiters := by
  simp only [isDelimiter, isClosing, Bool.or_eq_true, beq_iff_eq] at h
  simp only [delimiters, List.mem_cons, List.not_mem_nil, or_false]
  rcases h with (((h | h) | h) | h) | (h | h) | h <;> simp [h]

section
variable {rest : List Char}

/-- What holds of no text and of every delimiter holds where a value ends (`EndsValue`). -/
theorem EndsValue.cases {motive : List Char → Prop} (h : EndsValue rest) (hnil : motive [])
    (hcons : ∀ c ∈ delimiters, ∀ t, motive (c :: t)) : motive rest := by
  cases rest with
  | nil => exact hnil
  | cons c t => exact hcons c (mem_delimiters (h c t rfl)) t

/-- A character that is neither blank nor a backslash nor a number sign is not skipped. -/
theorem skip_cons {c : Char} (hblank : isBlank c = false) (hbackslash : c ≠ '\\')
    (hcomment : c ≠ '#') (t : List Char) : skip (c :: t) = c :: t := by
  have hskip : ¬(isBlank c || c == '\\') = true := by simp [hblank, hbackslash]
  rw [skip, skipFrom, if_neg hskip, if_neg hcomment]

/-- A character that may start a value (`StartsValue`) is not skipped. -/
theorem StartsValue.skip_eq {c : Char} (h : StartsValue c) (t : List Char) :
    skip (c :: t) = c :: t :=
  skip_cons h.isBlank h.backslash h.comment t

/-- Nothing is skipped behind a value, since no delimiter is (`EndsValue`). -/
theorem EndsValue.skip_eq (h : EndsValue rest) : skip rest = rest := by
  refine h.cases (motive := fun s => skip s = s) rfl ?_
  intro c hc t
  have hall : ∀ c ∈ delimiters, isBlank c = false ∧ c ≠ '\\' ∧ c ≠ '#' :=
    Text.forall_mem_of_all (by decide)
  obtain ⟨hblank, hbackslash, hcomment⟩ := hall c hc
  exact skip_cons hblank hbackslash hcomment t

/-- No character of a kind `p` stands behind a value if no delimiter is of the kind. -/
theorem EndsValue.stops (h : EndsValue rest) {p : Char → Bool}
    (hp : ∀ c ∈ delimiters, p c = false) : Stops p rest := fun c t ht =>
  hp c (mem_delimiters (h c t ht))

/-! ## Strings -/

/-- No string opens at a character that is neither a quote nor a prefix. -/
theorem opensString?_cons {c : Char} (hquote : isQuote c = false)
    (hraw : isStringPrefix c = false) (t : List Char) : opensString? (c :: t) = none := by
  unfold opensString?
  dsimp only
  rw [if_neg (by rw [hquote]; exact Bool.false_ne_true),
    if_neg (by rw [hraw]; exact Bool.false_ne_true)]

/-- No string opens behind a value: no delimiter is a quote or a prefix (`EndsValue`). -/
theorem EndsValue.opensString? (h : EndsValue rest) : opensString? rest = none := by
  refine h.cases (motive := fun s => Literal.opensString? s = none) rfl ?_
  intro c hc t
  have hall : ∀ c ∈ delimiters, isQuote c = false ∧ isStringPrefix c = false :=
    Text.forall_mem_of_all (by decide)
  exact opensString?_cons (hall c hc).1 (hall c hc).2 t

/-- How strings are written: between single quotes, with escapes, on one line. -/
def plainQuoting : Quoting := ⟨'\'', false, false⟩

/-- What is written for a character is read as the character, whatever text `t` follows it. -/
theorem readContent_escapeChar (c : Char) (t : List Char) :
    readContent plainQuoting .plain (escapeChar c ++ t)
      = prepend [c] (readContent plainQuoting .plain t) := by
  unfold escapeChar
  split
  · next h => rw [h]; rfl
  split
  · next h => rw [h]; rfl
  split
  · next h => rw [h]; rfl
  split
  · next h => rw [h]; rfl
  · next hbackslash hquote hbreak _ =>
    exact (Takes.char (fun hcloses => hquote hcloses.1) hbackslash fun _ => hbreak).readContent_eq

/-- What is written for the characters of a string is read as the string, by induction over them. -/
theorem readContent_written (cs rest : List Char) :
    readContent plainQuoting .plain (cs.flatMap escapeChar ++ '\'' :: rest) = .ok (cs, rest) := by
  induction cs with
  | nil => rfl
  | cons c cs ih =>
    rw [List.flatMap_cons, List.append_assoc, readContent_escapeChar, ih]
    rfl

/-- The first character that is written for a character is no quote, so a written string is not
empty where it is not. -/
theorem escapeChar_start (c : Char) : ∃ b t, escapeChar c = b :: t ∧ b ≠ '\'' := by
  unfold escapeChar
  split
  · exact ⟨_, _, rfl, by decide⟩
  split
  · exact ⟨_, _, rfl, by decide⟩
  split
  · exact ⟨_, _, rfl, by decide⟩
  split
  · exact ⟨_, _, rfl, by decide⟩
  · next hquote _ _ => exact ⟨c, [], rfl, hquote⟩

/-- Two quotes do not follow a character that is none (`behindTwo?`). -/
theorem behindTwo?_cons {quote c : Char} (h : c ≠ quote) (t : List Char) :
    behindTwo? quote (c :: t) = none := by
  cases t with
  | nil => rfl
  | cons d t =>
    rw [behindTwo?, if_neg]
    exact fun hboth => h hboth.1

/-- A written string is no long one, also if it is empty: no quote stands behind it. -/
theorem behindTwo?_content (cs : List Char) (h : EndsValue rest) :
    behindTwo? '\'' (cs.flatMap escapeChar ++ '\'' :: rest) = none := by
  cases cs with
  | nil =>
    refine h.cases (motive := fun s => behindTwo? '\'' ('\'' :: s) = none) rfl ?_
    intro c hc t
    have hall : ∀ c ∈ delimiters, c ≠ '\'' :=
      Text.forall_mem_of_all (by decide)
    exact if_neg fun hboth => hall c hc hboth.2
  | cons c cs =>
    obtain ⟨b, t, ht, hb⟩ := escapeChar_start c
    rw [List.flatMap_cons, ht]
    exact behindTwo?_cons hb _

/-- A written string is read from behind its first quote on, with no further string side by side
with it. -/
theorem readStrings_quoted (s : String) (h : EndsValue rest) (bound : Nat) :
    readStrings (bound + 1) (quoted s ++ rest) = .ok (s.toList, rest) := by
  have hstring : readString false '\'' (s.toList.flatMap escapeChar ++ '\'' :: rest)
      = .ok (s.toList, rest) := by
    rw [readString, behindTwo?_content s.toList h]
    exact readContent_written s.toList rest
  have hopens : opensString? (quoted s ++ rest)
      = some (false, '\'', s.toList.flatMap escapeChar ++ '\'' :: rest) := by
    rw [quoted, List.append_assoc]
    rfl
  rw [readStrings, hopens]
  dsimp only
  rw [hstring]
  show (if (opensString? (skip rest)).isSome = true then _ else _) = _
  rw [h.skip_eq, h.opensString?]
  rfl

/-- Nothing is skipped where a string opens, at its quote or its prefix. -/
theorem skip_of_opensString? {s : List Char} {opening : Bool × Char × List Char}
    (h : Literal.opensString? s = some opening) : skip s = s := by
  unfold Literal.opensString? at h
  split at h
  · cases h
  split at h
  · next c t hquote =>
    rw [isQuote, Bool.or_eq_true, beq_iff_eq, beq_iff_eq] at hquote
    rcases hquote with rfl | rfl <;> exact skip_cons rfl (by decide) (by decide) t
  split at h
  · next c t _ hc =>
    simp only [isStringPrefix, Bool.or_eq_true, beq_iff_eq] at hc
    rcases hc with ((rfl | rfl) | rfl) | rfl <;>
      exact skip_cons (by decide) (by decide) (by decide) t
  · cases h

/-- A text that is one string is read as the string, with nothing left behind it. -/
theorem read_of_readString {raw : Bool} {quote : Char} {s t text : List Char}
    (hopens : Literal.opensString? s = some (raw, quote, t))
    (h : readString raw quote t = .ok (text, [])) : read s = .ok (string (String.ofList text)) := by
  have hstrings (bound : Nat) : readStrings (bound + 1) s = .ok (text, []) := by
    rw [readStrings, hopens]
    dsimp only
    rw [h]
    rfl
  have hvalue (bound : Nat) : readValue (bound + 2) s = .ok (string (String.ofList text), []) := by
    have hskip := skip_of_opensString? hopens
    cases s with
    | nil => cases hopens
    | cons c s =>
      rw [readValue, hskip]
      dsimp only
      rw [hopens, Option.isSome_some, if_pos rfl, hstrings]
      rfl
  rw [read, hvalue]
  rfl

/-! ## Integers -/

/-- A digit is none of the characters that are no digits, which settles comparisons with marks. -/
theorem beq_of_isDigit {c d : Char} (hc : isDigit c = true) (hd : isDigit d = false) :
    (c == d) = false :=
  beq_eq_false_iff_ne.2 (Text.ne_of_kind hc hd)

/-- Digits and underscores are taken up to the end of the value (`numeralRun`). -/
theorem numeralRun_digits {digits : List Char}
    (hdigits : ∀ c ∈ digits, isDigit c = true ∨ c = '_') (h : EndsValue rest) :
    numeralRun false (digits ++ rest) = (digits, rest) := by
  induction digits with
  | nil =>
    refine h.cases (motive := fun s => numeralRun false s = ([], s)) rfl ?_
    intro c hc t
    have hall : ∀ c ∈ delimiters, (isDigit c || c == '_' || c == '.') = false
        ∧ (c == 'e' || c == 'E') = false :=
      Text.forall_mem_of_all (by decide)
    obtain ⟨hdigit, hmark⟩ := hall c hc
    rw [numeralRun, hdigit, hmark]
    rfl
  | cons c digits ih =>
    have hc : (isDigit c || c == '_') = true := by
      simpa using hdigits c List.mem_cons_self
    rw [List.cons_append, numeralRun, hc, Bool.true_or, if_pos rfl]
    dsimp only
    rw [ih fun c hc => hdigits c (List.mem_cons_of_mem _ hc)]

/-- No digit is a radix mark, so decimal digits are not taken for those of another radix. -/
theorem radix?_of_isDigit {c : Char} (h : isDigit c = true) : radix? c = none := by
  unfold radix?
  simp only [beq_of_isDigit h (rfl : isDigit 'x' = false),
    beq_of_isDigit h (rfl : isDigit 'X' = false),
    beq_of_isDigit h (rfl : isDigit 'o' = false),
    beq_of_isDigit h (rfl : isDigit 'O' = false),
    beq_of_isDigit h (rfl : isDigit 'b' = false),
    beq_of_isDigit h (rfl : isDigit 'B' = false)]
  rfl

/-- Digits and underscores have no radix mark, also behind a leading zero. -/
theorem takeRadix?_digits {digits : List Char}
    (hdigits : ∀ c ∈ digits, isDigit c = true ∨ c = '_') (h : EndsValue rest) :
    takeRadix? (digits ++ rest) = none := by
  unfold takeRadix?
  split
  · next c t heq =>
    have hradix : radix? c = none := by
      match digits, hdigits, heq with
      | [], _, heq => exact absurd (h _ _ heq) (by decide)
      | [_], _, heq =>
        have hrest := (List.cons.inj heq).2
        have hall : ∀ c ∈ delimiters, radix? c = none :=
          Text.forall_mem_of_all (by decide)
        exact hall c (mem_delimiters (h c t hrest))
      | _ :: d :: _, hdigits, heq =>
        rw [← (List.cons.inj (List.cons.inj heq).2).1]
        rcases hdigits d (List.mem_cons_of_mem _ List.mem_cons_self) with hd | rfl
        · exact radix?_of_isDigit hd
        · rfl
    rw [hradix]
    rfl
  · rfl

/-- Digits without a fraction, an exponent or an imaginary mark are an integer, if it is in range.
-/
theorem ofNumeral_digits {digits : List Char} (hdigits : ∀ c ∈ digits, isDigit c = true)
    (h : EndsValue rest) :
    ofNumeral digits rest =
      match Decimal.readInteger 10 digits with
      | .ok i => .ok (integer i, rest)
      | .error e => .error (.decimalInteger (String.ofList digits) e) := by
  have hmarks : (digits.any fun c => c == '.' || c == 'e' || c == 'E') = false := by
    refine List.any_eq_false.2 ?_
    intro c hc
    have hdigit := hdigits c hc
    simp [beq_of_isDigit hdigit (rfl : isDigit '.' = false),
      beq_of_isDigit hdigit (rfl : isDigit 'e' = false),
      beq_of_isDigit hdigit (rfl : isDigit 'E' = false)]
  unfold ofNumeral
  dsimp only
  split
  · exact absurd (h _ _ rfl) (by decide)
  · exact absurd (h _ _ rfl) (by decide)
  · rewrite [hmarks, if_neg Bool.false_ne_true]
    rfl

/-- Digits, between which underscores may stand, are the digits of an integer, without the
underscores. -/
theorem readUnsigned_digits {digits : List Char}
    (hdigits : ∀ c ∈ digits, isDigit c = true ∨ c = '_') (hne : digits.filter (· != '_') ≠ [])
    (h : EndsValue rest) :
    readUnsigned (digits ++ rest) = ofNumeral (digits.filter (· != '_')) rest := by
  rw [readUnsigned, takeRadix?_digits hdigits h, numeralRun_digits hdigits h]
  dsimp only
  rw [List.isEmpty_eq_false_iff.2 hne, if_neg Bool.false_ne_true]

/-- A written natural number is read as an integer, if it is at most `maxInt64`. -/
theorem readUnsigned_natural {n : Nat} (hn : n ≤ Decimal.maxInt64) (h : EndsValue rest) :
    readUnsigned (Decimal.natural n ++ rest) = .ok (integer (Int64.ofInt n), rest) := by
  have hdigits : ∀ c ∈ Decimal.natural n, isDigit c = true :=
    fun c hc => Decimal.isDigit_of_mem_natural hc
  have hfilter : (Decimal.natural n).filter (· != '_') = Decimal.natural n :=
    List.filter_eq_self.2 fun c hc =>
      bne_iff_ne.2 (Text.ne_of_kind (hdigits c hc) rfl)
  rw [readUnsigned_digits (fun c hc => .inl (hdigits c hc))
      (by rw [hfilter]; exact Decimal.natural_ne_nil n) h,
    hfilter, ofNumeral_digits hdigits h, Decimal.readInteger_natural hn]

/-- No sign stands before a digit, so `takeSigns` takes nothing. -/
theorem takeSigns_digit {c : Char} (h : isDigit c = true) (negative : Bool) (t : List Char) :
    takeSigns false negative (c :: t) = (negative, c :: t) := by
  have hstart := startsValue_of_isWordChar (isWordChar_of_isDigit h)
  rw [takeSigns, if_neg (Text.ne_of_kind h rfl), if_neg (Text.ne_of_kind h rfl),
    if_neg (by simp [hstart.isBlank, hstart.backslash]), if_neg hstart.comment]

/-- The digits of an integer other than the least one are in range: its magnitude is at most
`maxInt64`. -/
theorem natAbs_le_maxInt64 {i : Int64} (h : i ≠ Int64.minValue) :
    i.toInt.natAbs ≤ Decimal.maxInt64 := by
  have hlower := i.le_toInt
  have hupper := i.toInt_lt
  have hne : i.toInt ≠ -2 ^ 63 := by
    intro he
    exact h (Int64.toInt_inj.1 (he.trans Int64.toInt_minValue.symm))
  unfold Decimal.maxInt64
  omega

/-- A written integer is read with its sign, if it is not the least one (`hi`). -/
theorem readSigned_integer {i : Int64} (hi : i ≠ Int64.minValue) (h : EndsValue rest) :
    readSigned (Decimal.integer i.toInt ++ rest) = .ok (integer i, rest) := by
  have hunsigned := readUnsigned_natural (natAbs_le_maxInt64 hi) h
  obtain ⟨c, t, hc⟩ := List.exists_cons_of_ne_nil (Decimal.natural_ne_nil i.toInt.natAbs)
  have hdigit : isDigit c = true := Decimal.isDigit_of_mem_natural (hc ▸ List.mem_cons_self)
  have hsigns (negative : Bool) :
      takeSigns false negative (Decimal.natural i.toInt.natAbs ++ rest)
        = (negative, Decimal.natural i.toInt.natAbs ++ rest) := by
    rw [hc]
    exact takeSigns_digit hdigit negative (t ++ rest)
  rcases Int.lt_or_le i.toInt 0 with hneg | hpos
  · have hvalue : -Int64.ofInt i.toInt.natAbs = i := by
      rw [← Int64.ofInt_neg, show -(i.toInt.natAbs : Int) = i.toInt by omega, Int64.ofInt_toInt]
    rw [readSigned, Decimal.integer, if_pos hneg, List.cons_append, takeSigns, if_pos rfl,
      Bool.not_false, hsigns]
    dsimp only
    rw [hunsigned]
    show Except.ok (integer (-Int64.ofInt i.toInt.natAbs), rest) = _
    rw [hvalue]
  · have hvalue : Int64.ofInt i.toInt.natAbs = i := by
      rw [show (i.toInt.natAbs : Int) = i.toInt by omega, Int64.ofInt_toInt]
    rw [readSigned, Decimal.integer, if_neg (by omega), hsigns]
    dsimp only
    rw [hunsigned, hvalue]
    rfl

/-- No imaginary part stands behind a value: no delimiter is a sign (`EndsValue`). -/
theorem EndsValue.imaginaryPart? (h : EndsValue rest) : imaginaryPart? rest = none := by
  unfold Literal.imaginaryPart?
  rw [h.skip_eq]
  cases rest with
  | nil => rfl
  | cons c t =>
    have hall : ∀ c ∈ delimiters, (c = '+' || c = '-') = false :=
      Text.forall_mem_of_all (by decide)
    dsimp only
    rw [hall c (mem_delimiters (h c t rfl)), if_neg Bool.false_ne_true]

/-- A written integer is read as itself by `readNumber`, if it is not the least one. -/
theorem readNumber_integer {i : Int64} (hi : i ≠ Int64.minValue) (h : EndsValue rest) :
    readNumber (Decimal.integer i.toInt ++ rest) = .ok (integer i, rest) := by
  rw [readNumber, readSigned_integer hi h]
  dsimp only [bind, Except.bind]
  rw [h.imaginaryPart?]
  rfl

/-! ## Names -/

/-- A name that stands for a value (`named?`) is read as the value, if the text behind it goes on
with no value. -/
theorem readName_named {name : String} {l : Literal}
    (hname : ∀ c ∈ name.toList, isNameChar c = true) (hl : named? name = some l)
    (h : EndsValue rest) (bound : Nat) :
    readName (bound + 1) (name.toList ++ rest) = .ok (l, rest) := by
  have hstops : Stops isNameChar rest := h.stops (Text.forall_mem_of_all (by decide))
  rw [readName, hstops.takeWhile_run hname, hstops.dropWhile_run hname, String.ofList_toList, hl]

end

end WorkflowTemplates.Literal
