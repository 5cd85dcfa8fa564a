/-!
# Numbers of the format binary64

A finite number is a sign, a mantissa and a power of two. Every operation rounds an exact quotient
of natural numbers to the nearest number of the format, a tie to the even mantissa (`ofQuotient`),
so that all results are computed in natural numbers.
-/

namespace WorkflowTemplates

/-- The power of two `2 ^ n`, through `Nat.pow` so that the kernel computes it as a number. -/
def pow2 (n : Nat) : Nat :=
  Nat.pow 2 n

/-- The power of ten `10 ^ n`, through `Nat.pow` so that the kernel computes it as a number. -/
def pow10 (n : Nat) : Nat :=
  Nat.pow 10 n

/-- A number of the format binary64 of IEEE 754. `finite negative mantissa exponent` is `mantissa *
2 ^ exponent` with a sign; zero has both signs, and all NaNs are one. -/
inductive Binary64
  | nan
  | infinity (negative : Bool)
  | finite (negative : Bool) (mantissa : Nat) (exponent : Int)
  deriving DecidableEq, Inhabited

namespace Binary64

/-- The least exponent of a mantissa, which belongs to the subnormal numbers of the format. -/
def minExponent : Int := -1074

/-- The greatest exponent of a mantissa; above it a result is infinite (`ofQuotient`). -/
def maxExponent : Int := 971

/-- Zero of either sign, with the exponent `minExponent`. -/
def zero (negative : Bool) : Binary64 :=
  finite negative 0 minExponent

/-- The exponent of the last binary place that `num / den` keeps: 52 below the exponent of its first
binary digit, and never below `minExponent`. -/
def lastPlace (num den : Nat) : Int :=
  let k : Int := (num.log2 : Int) - den.log2
  let first := if num * pow2 (-k).toNat < den * pow2 k.toNat then k - 1 else k
  max (first - 52) minExponent

/-- The natural number nearest to `num / den`, the even one of two that are equally near: the
rounding to nearest, ties to even, of IEEE 754. -/
def roundToEven (num den : Nat) : Nat :=
  let q := num / den
  let r := num % den
  if 2 * r < den ∨ (2 * r = den ∧ q % 2 = 0) then q else q + 1

/-- The number of the format nearest to `num / den`, with the given sign: the mantissa is rounded
(`roundToEven`) at `lastPlace`, and past the largest finite number the result is infinite. -/
def ofQuotient (negative : Bool) (num den : Nat) : Binary64 :=
  if num = 0 then zero negative
  else
    let e := lastPlace num den
    let m := roundToEven (num * pow2 (-e).toNat) (den * pow2 e.toNat)
    let (m, e) := if m = pow2 53 then (pow2 52, e + 1) else (m, e)
    if maxExponent < e then infinity negative else finite negative m e

/-- The number of the format nearest to `num / den * 2 ^ e`, with the given sign. -/
def ofScaledQuotient (negative : Bool) (num den : Nat) (e : Int) : Binary64 :=
  ofQuotient negative (num * pow2 e.toNat) (den * pow2 (-e).toNat)

/-- The number of the format nearest to `m * 10 ^ e`, with the given sign. Decimal exponents far
outside the range of the format are answered without computing the power. -/
def ofDecimal (negative : Bool) (m : Nat) (e : Int) : Binary64 :=
  let size := ((Nat.toDigits 10 m).length : Int) + e
  if m = 0 ∨ size < -330 then zero negative
  else if 310 < size then infinity negative
  else ofQuotient negative (m * pow10 e.toNat) (pow10 (-e).toNat)

/-- The number of the format nearest to the integer `i`; zero has the plus sign. -/
def ofInt (i : Int) : Binary64 :=
  ofQuotient (i < 0) i.natAbs 1

/-- Whether a number is neither infinite nor NaN. -/
def isFinite : Binary64 → Bool
  | finite .. => true
  | _ => false

/-- Whether a number carries a minus sign, as zero and infinity may too; NaN counts as unsigned. -/
def isNegative : Binary64 → Bool
  | nan => false
  | infinity s => s
  | finite s _ _ => s

/-- Whether a number is zero of either sign. -/
def isZero : Binary64 → Bool
  | finite _ m _ => m == 0
  | _ => false

/-- The number with the other sign; `nan` has none. -/
def neg : Binary64 → Binary64
  | nan => nan
  | infinity s => infinity !s
  | finite s m e => finite (!s) m e

/-- The number without its sign; `nan` has none. -/
def abs : Binary64 → Binary64
  | nan => nan
  | infinity _ => infinity false
  | finite _ m e => finite false m e

/-- The product rounded to the format, as IEEE 754 defines it: signs multiply, and infinity times
zero is `nan`. -/
def mul : Binary64 → Binary64 → Binary64
  | finite s m e, finite t n f => ofScaledQuotient (s != t) (m * n) 1 (e + f)
  | infinity s, infinity t => infinity (s != t)
  | infinity s, finite t n _ => if n = 0 then nan else infinity (s != t)
  | finite s m _, infinity t => if m = 0 then nan else infinity (s != t)
  | _, _ => nan

/-- The quotient rounded to the format, as IEEE 754 defines it: signs multiply, a finite number
other than zero over zero is infinite, and zero over zero or infinity over infinity is `nan`. -/
def div : Binary64 → Binary64 → Binary64
  | finite s m e, finite t n f =>
    if n = 0 then (if m = 0 then nan else infinity (s != t))
    else ofScaledQuotient (s != t) m n (e - f)
  | infinity s, finite t _ _ => infinity (s != t)
  | finite s _ _, infinity t => zero (s != t)
  | _, _ => nan

end Binary64

end WorkflowTemplates
