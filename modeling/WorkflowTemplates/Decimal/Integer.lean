import WorkflowTemplates.Text.Hex

/-!
# Written integers

Integers are written in decimal, without leading zeros and with a minus sign only. Signed 64-bit
integers are read in a radix up to sixteen, digit by digit from the left: the first character that
is no digit, or the first digit that takes the value out of range, decides the error.
-/

namespace WorkflowTemplates.Decimal

/-- The decimal digits of the natural number `n`, without leading zeros; zero is the one digit `0`.
-/
def natural (n : Nat) : List Char :=
  Nat.toDigits 10 n

/-- The decimal text of the integer `i`: the digits of `natural`, behind a minus sign if it is
negative. -/
def integer (i : Int) : List Char :=
  if i < 0 then '-' :: natural i.natAbs else natural i.natAbs

/-- Why a text is no signed 64-bit integer: it is empty, a character is no digit of the radix, or
the value is out of range on one side. -/
inductive IntegerError
  | empty
  | invalidDigit
  | tooLarge
  | tooSmall
  deriving DecidableEq

/-- The wording of an integer error, as the messages of readers repeat it. -/
def IntegerError.message : IntegerError → String
  | empty => "cannot parse integer from empty string"
  | invalidDigit => "invalid digit found in string"
  | tooLarge => "number too large to fit in target type"
  | tooSmall => "number too small to fit in target type"

/-- The value of digits after the value `acc` of the digits before them. The first character that is
no digit of the `radix` is an error, and so is the first digit that takes the value past `limit`,
whichever comes first. -/
def magnitude (radix limit : Nat) (overflow : IntegerError) :
    Nat → List Char → Except IntegerError Nat
  | acc, [] => .ok acc
  | acc, c :: s =>
    match Text.Hex.digitValue? c with
    | none => .error .invalidDigit
    | some d =>
      if radix ≤ d then .error .invalidDigit
      else if limit < radix * acc + d then .error overflow
      else magnitude radix limit overflow (radix * acc + d) s

/-- The greatest signed 64-bit integer. -/
def maxInt64 : Nat := 0x7fffffffffffffff

/-- The signed 64-bit integer that a text stands for: digits in the `radix` after at most one sign.
The bound of the digits (`magnitude`) is one greater behind a minus sign. -/
def readInteger (radix : Nat) : List Char → Except IntegerError Int64
  | [] => .error .empty
  | ['+'] | ['-'] => .error .invalidDigit
  | '+' :: s => (magnitude radix maxInt64 .tooLarge 0 s).map fun n => Int64.ofInt n
  | '-' :: s => (magnitude radix (maxInt64 + 1) .tooSmall 0 s).map fun n => Int64.ofInt (-n)
  | s => (magnitude radix maxInt64 .tooLarge 0 s).map fun n => Int64.ofInt n

end WorkflowTemplates.Decimal
