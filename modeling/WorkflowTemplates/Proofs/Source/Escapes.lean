import Mathlib.Data.List.Basic
import WorkflowTemplates.Proofs.Source.Scalars
import WorkflowTemplates.Proofs.Source.ValueScan

/-!
# Escapes in strings

A string between quotes is a row of characters and escapes (`Piece`). Each of them is read apart
from the others (`readContent_written`): escapes by number, those of quotes and backslashes, and
some of the others are read as the character that they stand for. But an alert, a backspace, a form
feed and a vertical tab are kept as they are written, and of an octal escape only a first zero is
read (`Piece.decoded`). So a string is read as what it stands for exactly if it has no such escapes
(`read_pieces`).
-/

namespace WorkflowTemplates.Literal

open Decimal (radixValue)
open Source (isQuote)
open Text.Hex (digitValue?)

/-! ## Escapes -/

/-- What a backslash and a character stand for together, by the table of escape sequences of Python;
a backslash at the end of a line stands for nothing. -/
def shortMeaning? : Char → Option (List Char)
  | '\\' => some ['\\']
  | '\'' => some ['\'']
  | '"' => some ['"']
  | 'a' => some ['\x07']
  | 'b' => some ['\x08']
  | 'f' => some ['\x0c']
  | 'n' => some ['\n']
  | 'r' => some ['\r']
  | 't' => some ['\t']
  | 'v' => some ['\x0b']
  | '\n' => some []
  | _ => none

/-- The digits below eight, of which an octal escape has up to three. -/
def octalDigits : List Char :=
  ['0', '1', '2', '3', '4', '5', '6', '7']

/-- A part of what stands between the quotes of a string: a character as it is, or an escape of one
of three kinds. -/
inductive Piece
  | plain (c : Char)
  /-- A backslash and a character. -/
  | short (c : Char)
  /-- A backslash and octal digits. -/
  | octal (digits : List Char)
  /-- A backslash, the mark of hexadecimal digits, and these. -/
  | number (mark : Char) (digits : List Char)

namespace Piece

variable {quote : Char} {p : Piece} {pieces : List Piece}

/-- The part as it is written between the quotes. -/
def written : Piece → List Char
  | plain c => [c]
  | short c => ['\\', c]
  | octal digits => '\\' :: digits
  | number mark digits => '\\' :: mark :: digits

/-- What the part stands for in Python: digits stand for the character of their value in base 8 or
16. -/
def meaning : Piece → List Char
  | plain c => [c]
  | short c => (shortMeaning? c).getD []
  | octal digits => [Char.ofNat (radixValue 8 0 digits)]
  | number _ digits => [Char.ofNat (radixValue 16 0 digits)]

/-- When a part may stand in a short string with this `quote`: a character is none that ends the
string or starts an escape; a character behind a backslash has a meaning; octal digits are at most
three; and hexadecimal digits are as many as their mark asks for, and stand for a character. -/
def WellFormed (quote : Char) : Piece → Prop
  | plain c => c ≠ quote ∧ c ≠ '\\' ∧ c ≠ '\n'
  | short c => (shortMeaning? c).isSome = true
  | octal digits => digits ≠ [] ∧ digits.length ≤ 3 ∧ ∀ c ∈ digits, c ∈ octalDigits
  | number mark digits =>
    (mark, digits.length) ∈ [('x', 2), ('u', 4), ('U', 8)]
      ∧ (∀ c ∈ digits, (digitValue? c).isSome = true) ∧ (radixValue 16 0 digits).isValidChar

/-- The characters of a part decide whether it is well-formed, so concrete strings can be checked.
-/
instance decidableWellFormed (quote : Char) : DecidablePred (WellFormed quote)
  | plain c => inferInstanceAs (Decidable (c ≠ quote ∧ c ≠ '\\' ∧ c ≠ '\n'))
  | short c => inferInstanceAs (Decidable ((shortMeaning? c).isSome = true))
  | octal digits =>
    decidable_of_iff
      (digits ≠ [] ∧ digits.length ≤ 3 ∧ digits.all (octalDigits.contains ·) = true)
      (by simp [WellFormed])
  | number mark digits =>
    decidable_of_iff
      ((mark, digits.length) ∈ [('x', 2), ('u', 4), ('U', 8)]
        ∧ digits.all (digitValue? · |>.isSome) = true ∧ (radixValue 16 0 digits).isValidChar)
      (by simp [WellFormed])

/-- Whether the part is read as what it stands for: not so for an alert, a backspace, a form feed
and a vertical tab, and among octal escapes only for the single zero. -/
def isDecoded : Piece → Bool
  | short c => !(['a', 'b', 'f', 'v'].contains c)
  | octal digits => digits == ['0']
  | _ => true

/-- What the part is read as: what it stands for, if it is decoded; a zero and the remaining digits
for other octal escapes that start with a zero; and the rest as it is written. -/
def decoded (p : Piece) : List Char :=
  if p.isDecoded then p.meaning
  else match p with
    | octal ('0' :: digits) => '\x00' :: digits
    | p => p.written

/-! ## Reading a part -/

/-- A character is read as it is, if it neither ends the string nor starts an escape. -/
theorem readContent_plain {c : Char} (h : (plain c).WellFormed quote) (rest : List Char) :
    readContent ⟨quote, false, false⟩ .plain (c :: rest)
      = prepend [c] (readContent ⟨quote, false, false⟩ .plain rest) := by
  obtain ⟨hquote, hbackslash, hbreak⟩ := h
  exact (Takes.char (fun hcloses => hquote hcloses.1) hbackslash fun _ => hbreak).readContent_eq

/-- Several characters are read as they are, one after the other. -/
theorem readContent_text {text : List Char} (h : ∀ c ∈ text, (plain c).WellFormed quote)
    (rest : List Char) :
    readContent ⟨quote, false, false⟩ .plain (text ++ rest)
      = prepend text (readContent ⟨quote, false, false⟩ .plain rest) := by
  induction text with
  | nil => rw [List.nil_append, prepend_nil]
  | cons c text ih =>
    have htext := ih fun c hc => h c (List.mem_cons_of_mem _ hc)
    rw [List.cons_append, readContent_plain (h c List.mem_cons_self), htext, prepend_prepend]
    rfl

/-- A backslash starts an escape, as it is no quote itself. -/
theorem readContent_backslash (h : isQuote quote = true) (rest : List Char) :
    readContent ⟨quote, false, false⟩ .plain ('\\' :: rest)
      = readContent ⟨quote, false, false⟩ .escape rest := by
  have hopen : ¬ClosesAt ⟨quote, false, false⟩ '\\' rest := by
    rintro ⟨rfl, -⟩
    cases h
  rw [(Takes.backslash hopen).readContent_eq, prepend_nil]

/-- The digits of an escape by number are read together, and become the character of their value
(`escapeValue?`). -/
theorem readContent_digits {q : Quoting} {digits read : List Char} {c : Char}
    (hne : digits ≠ []) (h : escapeValue? (read ++ digits) = some c) (rest : List Char) :
    readContent q (.digits read digits.length) (digits ++ rest)
      = prepend [c] (readContent q .plain rest) := by
  induction digits generalizing read with
  | nil => exact absurd rfl hne
  | cons digit digits ih =>
    rw [List.cons_append, readContent, List.length_cons]
    cases digits with
    | nil =>
      dsimp only [List.length_nil]
      rw [if_neg (by omega), h]
      rfl
    | cons next digits =>
      rw [if_pos (by simp), Nat.add_sub_cancel]
      exact ih (List.cons_ne_nil _ _) (by rwa [List.append_assoc])

/-- Hexadecimal digits stand for the character of their value, if their value is one of a character
(`hvalid`): neither too large nor a surrogate. -/
theorem escapeValue?_eq {digits : List Char} (h : ∀ c ∈ digits, (digitValue? c).isSome = true)
    (hvalid : (radixValue 16 0 digits).isValidChar) :
    escapeValue? digits = some (Char.ofNat (radixValue 16 0 digits)) := by
  have hdigits : ∀ c ∈ digits, ∃ d < 16, digitValue? c = some d := by
    intro c hc
    obtain ⟨d, hd⟩ := Option.isSome_iff_exists.1 (h c hc)
    exact ⟨d, Decimal.digitValue?_lt hd, hd⟩
  have hlimit : radixValue 16 0 digits ≤ 0xffffffff := by
    rcases hvalid with hlow | ⟨-, hhigh⟩
    · omega
    · omega
  have hread := Decimal.magnitude_eq .tooLarge hdigits hlimit
  unfold escapeValue?
  dsimp only
  -- A sign is no digit, so the digits are read as they are.
  split
  · next n hn =>
    have hvalue : n = radixValue 16 0 digits := by
      split at hn
      · cases h '+' List.mem_cons_self
      rw [hread] at hn
      exact (Except.ok.inj hn).symm
    rw [hvalue, dif_pos hvalid, Char.ofNat, dif_pos hvalid]
  · next hn =>
    split at hn
    · cases h '+' List.mem_cons_self
    rw [hread] at hn
    cases hn

/-- An octal digit is no quote, and starts no escape, so it is read as it is where it is no part of
one. -/
theorem wellFormed_octalDigit (hquote : isQuote quote = true) {c : Char} (h : c ∈ octalDigits) :
    (plain c).WellFormed quote := by
  have hall : ∀ c ∈ octalDigits, c ≠ '"' ∧ c ≠ '\'' ∧ c ≠ '\\' ∧ c ≠ '\n' :=
    Text.forall_mem_of_all (by decide)
  obtain ⟨hdouble, hsingle, hbackslash, hbreak⟩ := hall c h
  rw [isQuote, Bool.or_eq_true, beq_iff_eq, beq_iff_eq] at hquote
  rcases hquote with rfl | rfl
  · exact ⟨hdouble, hbackslash, hbreak⟩
  · exact ⟨hsingle, hbackslash, hbreak⟩

/-- A zero is read as the character of no value, and the octal digits behind it as they are. -/
theorem decoded_zero (digits : List Char) : (octal ('0' :: digits)).decoded = '\x00' :: digits := by
  cases digits with
  | nil => rfl
  | cons c digits => rfl

/-- Octal digits that do not start with a zero are kept, with their backslash. -/
theorem decoded_octal {c : Char} (hc : c ≠ '0') (digits : List Char) :
    (octal (c :: digits)).decoded = '\\' :: c :: digits := by
  have hkept : (octal (c :: digits)).isDecoded = false := by simp [isDecoded, hc]
  rw [decoded, hkept, if_neg Bool.false_ne_true]
  · rfl
  · intro _ heq
    cases heq
    exact hc rfl

/-- Behind a backslash, octal digits are read by their first one: only a zero is an escape to the
reader. -/
theorem readContent_octal (hquote : isQuote quote = true) {digits : List Char}
    (h : (octal digits).WellFormed quote) (rest : List Char) :
    readContent ⟨quote, false, false⟩ .escape (digits ++ rest)
      = prepend (octal digits).decoded (readContent ⟨quote, false, false⟩ .plain rest) := by
  obtain ⟨hne, -, hoctal⟩ := h
  obtain ⟨c, digits, rfl⟩ := List.exists_cons_of_ne_nil hne
  obtain ⟨hc, hdigits⟩ := List.forall_mem_cons.1 hoctal
  have htext := readContent_text (fun c hc => wellFormed_octalDigit hquote (hdigits c hc)) rest
  have hkept (hzero : c ≠ '0')
      (hread : readContent ⟨quote, false, false⟩ .escape (c :: (digits ++ rest))
        = prepend ['\\', c] (readContent ⟨quote, false, false⟩ .plain (digits ++ rest))) :
      readContent ⟨quote, false, false⟩ .escape (c :: (digits ++ rest))
        = prepend (octal (c :: digits)).decoded
            (readContent ⟨quote, false, false⟩ .plain rest) := by
    rw [hread, htext, prepend_prepend, decoded_octal hzero]
    rfl
  simp only [octalDigits, List.mem_cons, List.not_mem_nil, or_false] at hc
  rcases hc with rfl | rfl | rfl | rfl | rfl | rfl | rfl | rfl
  · have hread : readContent ⟨quote, false, false⟩ .escape ('0' :: (digits ++ rest))
        = prepend ['\x00'] (readContent ⟨quote, false, false⟩ .plain (digits ++ rest)) := rfl
    rw [List.cons_append, hread, htext, prepend_prepend, decoded_zero]
    rfl
  all_goals exact hkept (by decide) rfl

/-- **Each part of a string is read apart from the others**, as its `decoded` characters, whatever
stands behind it. -/
theorem readContent_written (hquote : isQuote quote = true) (h : p.WellFormed quote)
    (rest : List Char) :
    readContent ⟨quote, false, false⟩ .plain (p.written ++ rest)
      = prepend p.decoded (readContent ⟨quote, false, false⟩ .plain rest) := by
  cases p with
  | plain c => exact readContent_plain h rest
  | short c =>
    rw [written, List.cons_append, readContent_backslash hquote]
    -- The characters with a meaning are decided one by one: some are decoded, the others kept.
    simp only [WellFormed, shortMeaning?] at h
    split at h
    iterate 11 rfl
    cases h
  | octal digits =>
    rw [written, List.cons_append, readContent_backslash hquote]
    exact readContent_octal hquote h rest
  | number mark digits =>
    obtain ⟨hmark, hdigits, hvalid⟩ := h
    have hvalue : escapeValue? ([] ++ digits) = some (Char.ofNat (radixValue 16 0 digits)) :=
      escapeValue?_eq hdigits hvalid
    have hread (hne : digits ≠ []) :
        readContent ⟨quote, false, false⟩ (.digits [] digits.length) (digits ++ rest)
          = prepend [Char.ofNat (radixValue 16 0 digits)]
              (readContent ⟨quote, false, false⟩ .plain rest) :=
      readContent_digits hne hvalue rest
    rw [written, List.cons_append, readContent_backslash hquote]
    simp only [List.mem_cons, Prod.mk.injEq, List.not_mem_nil, or_false] at hmark
    rcases hmark with ⟨rfl, hlength⟩ | ⟨rfl, hlength⟩ | ⟨rfl, hlength⟩
    all_goals
      have hne : digits ≠ [] := List.ne_nil_of_length_pos (by omega)
      have hdone := hread hne
      rw [hlength] at hdone
      exact hdone

/-- The parts of a string are read up to its quote, by induction over the parts. -/
theorem readContent_pieces (hquote : isQuote quote = true) (h : ∀ p ∈ pieces, p.WellFormed quote)
    (rest : List Char) :
    readContent ⟨quote, false, false⟩ .plain (pieces.flatMap written ++ quote :: rest)
      = .ok (pieces.flatMap decoded, rest) := by
  induction pieces with
  | nil =>
    rw [List.flatMap_nil, List.nil_append, readContent]
    simp
  | cons p pieces ih =>
    rw [List.flatMap_cons, List.append_assoc, readContent_written hquote (h p List.mem_cons_self),
      ih fun p hp => h p (List.mem_cons_of_mem _ hp)]
    rfl

/-- No part of a string starts with its quote, so a string of parts is not taken for a long one. -/
theorem written_start (hquote : isQuote quote = true) (h : p.WellFormed quote) :
    ∃ c t, p.written = c :: t ∧ c ≠ quote := by
  have hbackslash : '\\' ≠ quote := by
    rintro rfl
    cases hquote
  cases p with
  | plain c => exact ⟨c, [], rfl, h.1⟩
  | short c => exact ⟨_, _, rfl, hbackslash⟩
  | octal digits => exact ⟨_, _, rfl, hbackslash⟩
  | number mark digits => exact ⟨_, _, rfl, hbackslash⟩

/-! ## Parts that are not read as what they stand for -/

/-- What is read of a part that is not decoded is longer than what the part stands for: the
backslash or the remaining digits are left. -/
theorem length_lt_of_not_decoded (h : p.WellFormed quote) (hp : p.isDecoded = false) :
    p.meaning.length < p.decoded.length := by
  cases p with
  | plain c => cases hp
  | number mark digits => cases hp
  | short c =>
    simp only [WellFormed, shortMeaning?] at h
    split at h <;> first | decide | cases hp | cases h
  | octal digits =>
    obtain ⟨hne, -, -⟩ := h
    obtain ⟨c, digits, rfl⟩ := List.exists_cons_of_ne_nil hne
    by_cases hc : c = '0'
    · subst hc
      have hdigits : digits ≠ [] := by
        rintro rfl
        cases hp
      have hpos := List.length_pos_iff.2 hdigits
      rw [decoded_zero]
      exact Nat.succ_lt_succ hpos
    · rw [decoded_octal hc]
      exact Nat.succ_lt_succ (Nat.succ_pos digits.length)

/-- A part that is decoded (`isDecoded`) is read as what it stands for. -/
theorem decoded_eq_meaning (hp : p.isDecoded = true) : p.decoded = p.meaning :=
  if_pos hp

/-- What is read of a part is not shorter than what the part stands for, decoded or not. -/
theorem length_meaning_le (h : p.WellFormed quote) : p.meaning.length ≤ p.decoded.length := by
  cases hp : p.isDecoded with
  | true => rw [decoded_eq_meaning hp]
  | false => exact Nat.le_of_lt (length_lt_of_not_decoded h hp)

theorem length_flatMap_meaning_le (h : ∀ p ∈ pieces, p.WellFormed quote) :
    (pieces.flatMap meaning).length ≤ (pieces.flatMap decoded).length := by
  induction pieces with
  | nil => exact Nat.le_refl 0
  | cons p pieces ih =>
    have hp := length_meaning_le (h p List.mem_cons_self)
    have hpieces := ih fun p hp => h p (List.mem_cons_of_mem _ hp)
    rw [List.flatMap_cons, List.flatMap_cons, List.length_append, List.length_append]
    omega

/-- **Parts are read as what they stand for** exactly if each of them is decoded. A part that is not
decoded is read as something longer, which no other part makes up for. -/
theorem flatMap_decoded_eq_iff (h : ∀ p ∈ pieces, p.WellFormed quote) :
    pieces.flatMap decoded = pieces.flatMap meaning ↔ ∀ p ∈ pieces, p.isDecoded = true := by
  constructor
  · intro heq
    replace heq := congrArg List.length heq
    induction pieces with
    | nil => exact List.forall_mem_nil _
    | cons p pieces ih =>
      obtain ⟨hp, hpieces⟩ := List.forall_mem_cons.1 h
      have hle := length_meaning_le hp
      have hrest := length_flatMap_meaning_le hpieces
      rw [List.flatMap_cons, List.flatMap_cons, List.length_append, List.length_append] at heq
      refine List.forall_mem_cons.2 ⟨?_, ih hpieces (by omega)⟩
      refine Bool.not_eq_false _ |>.mp fun hkept => ?_
      have hlt := length_lt_of_not_decoded hp hkept
      omega
  · exact fun hall => List.flatMap_congr fun p hp => decoded_eq_meaning (hall p hp)

end Piece

section
variable {quote : Char} {lead : List Char} {pieces : List Piece}

/-- Between quotes, any well-formed parts are read as what is read of each of them, behind a prefix
that does not make the string raw. -/
theorem read_written_pieces (hquote : isQuote quote = true)
    (hlead : lead = [] ∨ lead = ['u'] ∨ lead = ['U']) (h : ∀ p ∈ pieces, p.WellFormed quote) :
    read (lead ++ quote :: (pieces.flatMap Piece.written ++ [quote]))
      = .ok (string (String.ofList (pieces.flatMap Piece.decoded))) := by
  have hshort : behindTwo? quote (pieces.flatMap Piece.written ++ [quote]) = none := by
    cases pieces with
    | nil => rfl
    | cons p pieces =>
      obtain ⟨c, t, ht, hc⟩ := Piece.written_start hquote (h p List.mem_cons_self)
      rw [List.flatMap_cons, ht]
      exact behindTwo?_cons hc _
  have hstring : readString false quote (pieces.flatMap Piece.written ++ [quote])
      = .ok (pieces.flatMap Piece.decoded, []) := by
    rw [readString, hshort]
    exact Piece.readContent_pieces hquote h []
  refine read_of_readString ?_ hstring
  rcases hlead with rfl | rfl | rfl
  · exact opensString?_quote hquote _
  · exact opensString?_cons_quote rfl hquote _
  · exact opensString?_cons_quote rfl hquote _

/-- **What a string with escapes is read as.** Between quotes, behind no prefix or one that does not
make the string raw, any parts may stand; the string is then read as what is read of each of them.
That is what they stand for exactly if there is no alert, backspace, form feed or vertical tab among
them, and no octal escape but the single zero (`isDecoded`). -/
theorem read_pieces (hquote : isQuote quote = true)
    (hlead : lead = [] ∨ lead = ['u'] ∨ lead = ['U']) (h : ∀ p ∈ pieces, p.WellFormed quote) :
    read (lead ++ quote :: (pieces.flatMap Piece.written ++ [quote]))
        = .ok (string (String.ofList (pieces.flatMap Piece.decoded)))
      ∧ (pieces.flatMap Piece.decoded = pieces.flatMap Piece.meaning
        ↔ ∀ p ∈ pieces, p.isDecoded = true) :=
  ⟨read_written_pieces hquote hlead h, Piece.flatMap_decoded_eq_iff h⟩

end

/-- A string of every kind of part that is decoded, with a character beyond the basic plane of
Unicode. -/
def greetingPieces : List Piece := [
  .plain 'h',
  .number 'x' "69".toList,
  .short 't',
  .octal ['0'],
  .short '\n',
  .plain '"',
  .short '\'',
  .number 'u' "00e9".toList,
  .number 'U' "0001F600".toList]

/-- The parts are well-formed between single quotes, where a double quote stands for itself. -/
theorem wellFormed_greetingPieces : ∀ p ∈ greetingPieces, p.WellFormed '\'' := by
  decide +kernel

/-- The string is read as what it stands for, behind a prefix that changes nothing. -/
theorem greetingPieces_read :
    read ('u' :: '\'' :: (greetingPieces.flatMap Piece.written ++ ['\'']))
      = .ok (string "hi\t\x00\"'é😀") := by
  have hquote : isQuote '\'' = true := rfl
  obtain ⟨hread, hmeaning⟩ :=
    read_pieces hquote (.inr (.inl rfl)) wellFormed_greetingPieces
  have hdecoded : ∀ p ∈ greetingPieces, p.isDecoded = true := by decide +kernel
  rw [hmeaning.2 hdecoded] at hread
  have hshown : String.ofList (greetingPieces.flatMap Piece.meaning) = "hi\t\x00\"'é😀" := by
    decide +kernel
  rw [hshown] at hread
  exact hread

/-- An alert, and the sequence by which terminals reset colours, whose escape character is written
in octal. -/
def alarmPieces : List Piece := [
  .short 'a',
  .octal "033".toList,
  .plain '[',
  .plain '0',
  .plain 'm']

/-- Neither the alert nor the octal escape is read as what it stands for: the backslash of the one
is kept, and of the other only the first zero is read. -/
theorem alarmPieces_not_decoded :
    (∀ p ∈ alarmPieces, p.WellFormed '\'')
      ∧ alarmPieces.flatMap Piece.written = "\\a\\033[0m".toList
      ∧ String.ofList (alarmPieces.flatMap Piece.meaning) = "\x07\x1b[0m"
      ∧ read "'\\a\\033[0m'".toList = .ok (string "\\a\x0033[0m") := by
  have hwellFormed : ∀ p ∈ alarmPieces, p.WellFormed '\'' := by decide +kernel
  have hquote : isQuote '\'' = true := rfl
  have hread := read_written_pieces hquote (.inl rfl) hwellFormed
  have hshown : String.ofList (alarmPieces.flatMap Piece.decoded) = "\\a\x0033[0m" := by
    decide +kernel
  rw [hshown] at hread
  exact ⟨hwellFormed, by decide +kernel, by decide +kernel, hread⟩

end WorkflowTemplates.Literal
