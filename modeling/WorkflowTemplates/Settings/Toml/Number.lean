import WorkflowTemplates.Decimal.Integer
import WorkflowTemplates.Decimal.Numeral
import WorkflowTemplates.Settings.Tree

/-!
# Numbers in TOML

A number is read from the run of characters that it takes. Underscores may stand between digits. A
whole number is decimal, without leading zeros, or it has a radix mark and no sign; it must fit in
64 bits. A floating-point number has a fraction, an exponent or both, or is one of two words.
-/

namespace WorkflowTemplates.Toml

/-- The digits of a run without its underscores, each of which must stand between digits; the flag
tells that a digit came before. -/
def joinDigits? (isDigit : Char → Bool) : Bool → List Char → Option (List Char)
  | afterDigit, [] => if afterDigit then some [] else none
  | afterDigit, c :: s =>
    if isDigit c then (joinDigits? isDigit true s).map (c :: ·)
    else if c = '_' ∧ afterDigit then joinDigits? isDigit false s
    else none

/-- Whether `c` is a digit of the `radix`, in either case. -/
def isDigitOf (radix : Nat) (c : Char) : Bool :=
  match Text.Hex.digitValue? c with
  | some d => d < radix
  | none => false

/-- The sign at the front of a text, of which a plus is dropped, and the text behind it. -/
def splitSign : List Char → List Char × List Char
  | '-' :: s => (['-'], s)
  | '+' :: s => ([], s)
  | s => ([], s)

/-- The digits of a whole part (`joinDigits?`), which must have no leading zeros. -/
def wholeDigits? (s : List Char) : Option (List Char) :=
  match s with
  | '0' :: _ :: _ => none
  | _ => joinDigits? Text.isDigit false s

/-- The integer of the digits behind a radix mark, which must fit in 64 bits with a sign. -/
def readRadix? (radix : Nat) (s : List Char) : Option Int64 :=
  (joinDigits? (isDigitOf radix) false s).bind fun digits =>
    (Decimal.readInteger radix digits).toOption

/-- An integer of TOML: digits behind a radix mark in lower case and without a sign, or decimal
digits without leading zeros behind an optional sign. -/
def readInteger? : List Char → Option Int64
  | '0' :: 'x' :: s => readRadix? 16 s
  | '0' :: 'o' :: s => readRadix? 8 s
  | '0' :: 'b' :: s => readRadix? 2 s
  | s =>
    let (sign, digits) := splitSign s
    (wholeDigits? digits).bind fun digits => (Decimal.readInteger 10 (sign ++ digits)).toOption

/-- The text of an exponent, with its mark and without underscores; nothing if there is none. -/
def exponent? : List Char → Option (List Char)
  | [] => some []
  | _ :: s =>
    let (sign, digits) := splitSign s
    (joinDigits? Text.isDigit false digits).map fun digits => 'e' :: sign ++ digits

/-- The text of a fraction, with its point and without underscores; nothing if there is none. -/
def fraction? : List Char → Option (List Char)
  | [] => some []
  | _ :: s => (joinDigits? Text.isDigit false s).map ('.' :: ·)

/-- Whether `c` starts an exponent, in either case. -/
def isExponentMark (c : Char) : Bool :=
  c == 'e' || c == 'E'

/-- A floating-point number of TOML in digits behind `sign`: it has a fraction, an exponent or both.
-/
def readDigits? (sign s : List Char) : Option Binary64 := do
  let mantissa := s.takeWhile (!isExponentMark ·)
  let whole ← wholeDigits? (mantissa.takeWhile (· != '.'))
  let fraction ← fraction? (mantissa.dropWhile (· != '.'))
  let exponent ← exponent? (s.dropWhile (!isExponentMark ·))
  if fraction.isEmpty && exponent.isEmpty then none
  else (Decimal.readFloat (sign ++ whole ++ fraction ++ exponent)).toOption

/-- A floating-point number of TOML: digits, `inf` or `nan` behind an optional sign. One that is too
large is refused, unless it is negative. -/
def readFloat? (s : List Char) : Option Binary64 :=
  let (sign, t) := splitSign s
  if t = "inf".toList then some (.infinity (sign ≠ []))
  else if t = "nan".toList then some .nan
  else (readDigits? sign t).filter (· ≠ .infinity false)

/-- The setting that a run of characters stands for: a truth value, a floating-point number or an
integer. -/
def readWord? (s : List Char) : Option Setting :=
  if s = "true".toList then some (.boolean true)
  else if s = "false".toList then some (.boolean false)
  else match readFloat? s, readInteger? s with
    | some x, _ => some (.float x)
    | none, some i => some (.integer i)
    | none, none => none

end WorkflowTemplates.Toml
