import WorkflowTemplates.Decimal.Numeral
import WorkflowTemplates.Json.Basic

/-!
# Reading the numbers of JSON

A whole number that a signed or unsigned 64-bit word holds is an integer. Any other number is read
as the whole number of its first digits that fit an unsigned word, rounded, and then multiplied or
divided by a power of ten, rounded again; further digits only count places. A result past the
largest finite number is an error.

A fault comes with the text that was left where it was found.
-/

namespace WorkflowTemplates.Json

/-- What is wrong with a number at the front of a text. -/
inductive NumberFault
  /-- The text ends inside the number, where the grammar of JSON needs a digit. -/
  | ended
  /-- A digit is missing, or one follows a leading zero. -/
  | malformed
  /-- The number has no finite value of the format binary64. -/
  | tooLarge
  deriving DecidableEq

/-- The greatest unsigned 64-bit integer. -/
def maxWord : Nat := 0xffffffffffffffff

/-- The first digits of a number, as a whole number `significand` that fits a word, and the power of
ten that goes with it. -/
structure Scaled where
  significand : Nat
  exponent : Int

/-- The digits with the digit `c` before the point added: once one does not fit `maxWord`, it and
all further ones only raise the exponent. -/
def Scaled.addWhole (s : Scaled) (c : Char) : Scaled :=
  let n := 10 * s.significand + (c.toNat - '0'.toNat)
  if s.exponent = 0 ∧ n ≤ maxWord then ⟨n, 0⟩ else ⟨s.significand, s.exponent + 1⟩

/-- The digits with those behind the point added, which are taken as long as they fit `maxWord`. -/
def Scaled.addFraction (s : Scaled) : List Char → Scaled
  | [] => s
  | c :: rest =>
    let n := 10 * s.significand + (c.toNat - '0'.toNat)
    if n ≤ maxWord then Scaled.addFraction ⟨n, s.exponent - 1⟩ rest else s

/-- The number `x` over `10 ^ k`, in steps of at most `10 ^ 308`, each of which is rounded; larger
powers of ten are not finite. -/
def divPower (x : Binary64) (k : Nat) : Binary64 :=
  if k ≤ 308 then x.div (.ofDecimal false 1 k)
  else if x.isZero then x
  else divPower (x.div (.ofDecimal false 1 308)) (k - 308)
  termination_by k

/-- The value of scaled digits, if it is finite: the significand rounded, then multiplied or divided
by the power of ten and rounded again. -/
def Scaled.toFloat? (negative : Bool) (s : Scaled) : Option Binary64 :=
  let x := Binary64.ofInt s.significand
  let y :=
    if s.exponent < 0 then divPower x s.exponent.natAbs
    else if s.exponent ≤ 308 then x.mul (.ofDecimal false 1 s.exponent)
    else if x.isZero then x
    else .infinity false
  if y.isFinite then some (if negative then y.neg else y) else none

/-- A fault of a number, and the text from where it was found on. -/
abbrev NumberError := NumberFault × List Char

/-- The fault of a digit that is missing at the front of the text `s`: by whether the text ends
there. -/
def missingDigit (s : List Char) : NumberError :=
  (if s.isEmpty then .ended else .malformed, s)

/-- The number of scaled digits (`Scaled.toFloat?`) in front of `rest`, or the fault that it has no
finite value. -/
def Scaled.finish (negative : Bool) (s : Scaled) (rest : List Char) :
    Except NumberError (Number × List Char) :=
  match (s.toFloat? negative).bind Number.ofFloat? with
  | some n => .ok (n, rest)
  | none => .error (.tooLarge, rest)

/-- The value of exponent digits after the value `acc`, and the text behind them; the text after the
first digit that takes the value past `2 ^ 31 - 1`, if one does. -/
def exponentValue : Nat → List Char → Except (List Char) (Nat × List Char)
  | acc, c :: s =>
    if Text.isDigit c then
      let n := 10 * acc + (c.toNat - '0'.toNat)
      if 0x7fffffff < n then .error s else exponentValue n s
    else .ok (acc, c :: s)
  | acc, [] => .ok (acc, [])

/-- The number of scaled digits and an exponent, from the character behind `e` on. An exponent out
of bounds makes zero of it, or is the fault that the number is too large. -/
def readExponent (negative : Bool) (scaled : Scaled) (s : List Char) :
    Except NumberError (Number × List Char) :=
  let (down, t) := Decimal.takeSign s
  match t with
  | [] => .error (missingDigit t)
  | c :: _ =>
    if !Text.isDigit c then .error (missingDigit t)
    else match exponentValue 0 t with
      | .ok (n, rest) =>
        let shift : Int := if down then -(n : Int) else n
        Scaled.finish negative ⟨scaled.significand, scaled.exponent + shift⟩ rest
      | .error rest =>
        if scaled.significand ≠ 0 && !down then .error (.tooLarge, rest)
        else Scaled.finish negative ⟨0, 0⟩ (rest.dropWhile Text.isDigit)

/-- The number of scaled digits and what follows the fraction: an exponent or nothing. -/
def readTail (negative : Bool) (scaled : Scaled) : List Char →
    Except NumberError (Number × List Char)
  | 'e' :: s | 'E' :: s => readExponent negative scaled s
  | s => scaled.finish negative s

/-- The number of scaled digits without fraction and exponent: an integer, if it fits a word and is
not minus zero, which has no integer. -/
def readWhole (negative : Bool) (scaled : Scaled) (rest : List Char) :
    Except NumberError (Number × List Char) :=
  let value : Int := if negative then -scaled.significand else scaled.significand
  if scaled.exponent ≠ 0 ∨ (negative ∧ value = 0) then scaled.finish negative rest
  else match Integer.ofInt? value with
    | some i => .ok (.integer i, rest)
    | none => scaled.finish negative rest

/-- The number of scaled digits before the point and what follows them: a fraction, an exponent or
nothing. -/
def readBehind (negative : Bool) (scaled : Scaled) : List Char →
    Except NumberError (Number × List Char)
  | '.' :: t =>
    let fraction := t.takeWhile Text.isDigit
    let behind := t.dropWhile Text.isDigit
    if fraction.isEmpty then .error (missingDigit behind)
    else readTail negative (scaled.addFraction fraction) behind
  | 'e' :: s | 'E' :: s => readExponent negative scaled s
  | rest => readWhole negative scaled rest

/-- A number from its first digit on, under the sign given by `negative`; a leading zero must be the
only digit before the point. -/
def readDigits (negative : Bool) (s : List Char) : Except NumberError (Number × List Char) :=
  let whole := s.takeWhile Text.isDigit
  match whole with
  | [] => .error (missingDigit s)
  | '0' :: _ :: _ => .error (.malformed, s.tail)
  | _ => readBehind negative (whole.foldl Scaled.addWhole ⟨0, 0⟩) (s.dropWhile Text.isDigit)

/-- A number at the front of a text, from its minus sign or first digit on, by the grammar of JSON:
no plus sign, no leading zero, and a digit on both sides of the point. -/
def readNumber : List Char → Except NumberError (Number × List Char)
  | '-' :: s => readDigits true s
  | s => readDigits false s

end WorkflowTemplates.Json
