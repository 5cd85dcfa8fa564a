import WorkflowTemplates.Decimal.Binary64

/-!
# The fewest digits that read back

A positive number of the format binary64 is `m * 2 ^ e`, and all real numbers between the middles
to its two neighbours round to it. Its shortest decimal form is found on grids of decreasing width:
the first grid that has a point in that interval wins, of two points the nearer one, and of two
equally near points the one that the rule for ties names.

Everything is compared in quarters of the last binary place, as natural numbers.
-/

namespace WorkflowTemplates.Decimal

/-- Which of two equally near decimals is taken: the greater one, or the one whose last digit is
even. -/
inductive Tie
  | up
  | even
  deriving DecidableEq

/-- A decimal number in digits: the `digits` from the first one that is not zero on, and the
`exponent` of the power of ten that this first digit counts. Zero has the one digit `0`. -/
structure Digits where
  digits : List Char
  exponent : Int
  deriving DecidableEq

/-- The exponent of the first decimal digit of `num / den`, where both are positive. -/
def firstPlace (num den : Nat) : Int :=
  if den ≤ num then ((Nat.toDigits 10 (num / den)).length : Int) - 1
  else -((Nat.toDigits 10 ((den + num - 1) / num - 1)).length : Int)

/-- The point of the grid of width `10 ^ k` that stands for `m * 2 ^ e`, if the grid has a point
among the numbers that round to it. The middles to the neighbours belong to the interval if the
mantissa `m` is even, by the rounding of `Binary64.roundToEven`. -/
def onGrid (tie : Tie) (m : Nat) (e k : Int) : Option Nat :=
  let scale := pow2 (e - 2).toNat * pow10 (-k).toNat
  let width := pow2 (2 - e).toNat * pow10 k.toNat
  let below := if m = pow2 52 ∧ Binary64.minExponent < e then 1 else 2
  let low := (4 * m - below) * scale
  let value := 4 * m * scale
  let high := (4 * m + 2) * scale
  let inside (d : Nat) : Bool :=
    if m % 2 = 0 then low ≤ d * width && d * width ≤ high
    else low < d * width && d * width < high
  let d := value / width
  match inside d, inside (d + 1) with
  | false, false => none
  | true, false => some d
  | false, true => some (d + 1)
  | true, true =>
    let excess := 2 * (value - d * width)
    if excess < width then some d
    else if width < excess then some (d + 1)
    else match tie with
      | .up => some (d + 1)
      | .even => some (if d % 2 = 0 then d else d + 1)

/-- The `digits` without the zeros that end them. -/
def dropZeros (digits : List Char) : List Char :=
  (digits.reverse.dropWhile (· == '0')).reverse

/-- The shortest digits that are read as `m * 2 ^ e` again: those of the coarsest grid that has a
point for it (`onGrid`). Seventeen digits tell all numbers of the format apart, so the last
alternative is never needed. -/
def shortest (tie : Tie) (m : Nat) (e : Int) : Digits :=
  if m = 0 then ⟨['0'], 0⟩
  else
    let first := firstPlace (m * pow2 e.toNat) (pow2 (-e).toNat)
    let found := (List.range 17).findSome? fun (i : Nat) =>
      (onGrid tie m e (first - i)).map fun d => (d, first - i)
    let (d, k) := found.getD (m, 0)
    let digits := Nat.toDigits 10 d
    ⟨dropZeros digits, k + digits.length - 1⟩

end WorkflowTemplates.Decimal
