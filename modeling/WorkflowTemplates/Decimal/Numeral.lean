import WorkflowTemplates.Decimal.Binary64
import WorkflowTemplates.Text.Letter

/-!
# Reading floating-point numbers

A floating-point number is read from decimal digits around at most one point, with at least one
digit and an optional exponent, or from the words `inf`, `infinity` and `nan` in any case; a sign
may come first. The result is the nearest number of the format.
-/

namespace WorkflowTemplates.Decimal

/-- Why a text is no floating-point number: it is empty, or it has another form. -/
inductive FloatError
  | empty
  | invalid
  deriving DecidableEq

/-- The wording of a floating-point error, as the messages of readers repeat it. -/
def FloatError.message : FloatError → String
  | empty => "cannot parse float from empty string"
  | invalid => "invalid float literal"

/-- The value of a run of decimal digits, the first the most significant; the empty run is zero. -/
def digitsValue (digits : List Char) : Nat :=
  digits.foldl (fun n c => 10 * n + (c.toNat - '0'.toNat)) 0

/-- Whether the text starts with a minus sign, and what follows the sign; no sign counts as plus. -/
def takeSign : List Char → Bool × List Char
  | '-' :: s => (true, s)
  | '+' :: s => (false, s)
  | s => (false, s)

/-- The exponent at the end of a number: nothing, which is zero, or `e` in either case, an optional
sign and at least one digit. -/
def readExponent? : List Char → Option Int
  | [] => some 0
  | c :: s =>
    let (negative, digits) := takeSign s
    if (c == 'e' || c == 'E') && !digits.isEmpty && digits.all Text.isDigit then
      some (if negative then -(digitsValue digits) else digitsValue digits)
    else none

/-- The number of an unsigned text in digits, with the sign given by `negative`: digits around at
most one point, at least one of them, and an exponent (`readExponent?`). -/
def readUnsigned? (negative : Bool) (s : List Char) : Option Binary64 :=
  let whole := s.takeWhile Text.isDigit
  let (fraction, rest) := match s.dropWhile Text.isDigit with
    | '.' :: t => (t.takeWhile Text.isDigit, t.dropWhile Text.isDigit)
    | t => ([], t)
  if whole.isEmpty && fraction.isEmpty then none
  else (readExponent? rest).map fun e =>
    .ofDecimal negative (digitsValue (whole ++ fraction)) (e - fraction.length)

/-- The floating-point number that the text `s` stands for, behind an optional sign: `inf`,
`infinity` or `nan` in any case, or a number in digits (`readUnsigned?`) rounded to binary64. -/
def readFloat (s : List Char) : Except FloatError Binary64 :=
  if s.isEmpty then .error .empty
  else
    let (negative, t) := takeSign s
    let word := String.ofList (Text.lowerCase t)
    if word == "inf" || word == "infinity" then .ok (.infinity negative)
    else if word == "nan" then .ok .nan
    else match readUnsigned? negative t with
      | some x => .ok x
      | none => .error .invalid

end WorkflowTemplates.Decimal
