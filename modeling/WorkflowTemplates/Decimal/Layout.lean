import WorkflowTemplates.Decimal.Integer
import WorkflowTemplates.Decimal.Shortest

/-!
# Layouts of floating-point numbers

What a format decides about the text of a number is a record (`FloatLayout`); the digits come from
`shortest`. A layout writes a number positionally or with an exponent, by the place of its first
digit.
-/

namespace WorkflowTemplates.Decimal

/-- The decisions of a format about the texts of floating-point numbers, besides their digits
(`FloatLayout.text`). -/
structure FloatLayout where
  /-- Which digits stand for a number that lies in the middle of two shortest decimals. -/
  tie : Tie
  /-- The exponents of the first digit for which a number is written positionally. -/
  positional : Int → Bool
  /-- Whether a whole number that is written positionally ends in `.0`. -/
  pointZero : Bool
  /-- The least number of digits of a written exponent, filled up with zeros. -/
  exponentDigits : Nat
  /-- The text for NaN. -/
  nan : String

/-- Digits around a point: `d.exponent` is the place of the first one, so zeros stand before or
behind the digits where these do not reach the point. -/
def positionalText (pointZero : Bool) (d : Digits) : List Char :=
  if d.exponent < 0 then
    '0' :: '.' :: (List.replicate (-d.exponent - 1).toNat '0' ++ d.digits)
  else
    let whole := d.exponent.toNat + 1
    if d.digits.length ≤ whole then
      d.digits ++ List.replicate (whole - d.digits.length) '0'
        ++ (if pointZero then ['.', '0'] else [])
    else d.digits.take whole ++ '.' :: d.digits.drop whole

/-- One digit before the point, the others after it, and a signed exponent of at least `width`
digits. -/
def exponentText (width : Nat) (d : Digits) : List Char :=
  let places := natural d.exponent.natAbs
  let mantissa := match d.digits with
    | first :: second :: rest => first :: '.' :: second :: rest
    | digits => digits
  mantissa ++ 'e' :: (if d.exponent < 0 then '-' else '+')
    :: (List.replicate (width - places.length) '0' ++ places)

/-- The text of a number in a `layout`: the digits are those of `shortest`, written as
`positionalText` or `exponentText` by the place of the first one; infinity is `inf`. -/
def FloatLayout.text (layout : FloatLayout) : Binary64 → List Char
  | .nan => layout.nan.toList
  | .infinity negative => if negative then "-inf".toList else "inf".toList
  | .finite negative m e =>
    let d := shortest layout.tie m e
    let body :=
      if layout.positional d.exponent then positionalText layout.pointZero d
      else exponentText layout.exponentDigits d
    if negative then '-' :: body else body

/-- The layout of plain numbers, as messages and settings show them: always positional, and whole
numbers without a point. -/
def FloatLayout.plain : FloatLayout where
  tie := .up
  positional _ := true
  pointZero := false
  exponentDigits := 1
  nan := "NaN"

end WorkflowTemplates.Decimal
