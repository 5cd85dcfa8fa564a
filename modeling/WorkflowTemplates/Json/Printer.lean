import WorkflowTemplates.Decimal.Layout
import WorkflowTemplates.Json.Basic

/-!
# The compact text of a JSON value

No blanks are written. In a string the quote, the backslash and the controls below space are
escaped, and every other character stands for itself. A number with a fraction or an exponent has
its fewest digits.
-/

namespace WorkflowTemplates.Json

/-- The layout of numbers of JSON that are no integers: positional from `0.00001` to below `10 ^
16`, whole ones with `.0`, and a middle value goes to the even digit. -/
def numberLayout : Decimal.FloatLayout where
  tie := .even
  positional e := -5 ≤ e && e ≤ 15
  pointZero := true
  exponentDigits := 1
  nan := "null"

/-- The text of a number: an integer in decimal, any other in its fewest digits (`numberLayout`). -/
def Number.text : Number → List Char
  | .integer i => Decimal.integer i.value
  | .float x _ => numberLayout.text x

/-- The escape by number of a control character `n` that has no short escape, in four hexadecimal
digits. -/
def unicodeEscape (n : Nat) : List Char :=
  ['\\', 'u', Text.Hex.digit (n / 4096 % 16), Text.Hex.digit (n / 256 % 16),
    Text.Hex.digit (n / 16 % 16), Text.Hex.digit (n % 16)]

/-- How `c` is written inside a string: by its short escape if JSON has one, by number if it is
another control character, else as it is. -/
def escapeChar (c : Char) : List Char :=
  if c = '"' then ['\\', '"']
  else if c = '\\' then ['\\', '\\']
  else if c = '\x08' then ['\\', 'b']
  else if c = '\x0c' then ['\\', 'f']
  else if c = '\n' then ['\\', 'n']
  else if c = '\r' then ['\\', 'r']
  else if c = '\t' then ['\\', 't']
  else if c < ' ' then unicodeEscape c.toNat
  else [c]

/-- The string `s` between quotes, each character as `escapeChar` writes it. -/
def quoted (s : String) : List Char :=
  '"' :: s.toList.flatMap escapeChar ++ ['"']

mutual

/-- The compact text of a value, without blanks; members stand in the order of the list. -/
def text : Json → List Char
  | .null => "null".toList
  | .bool b => if b then "true".toList else "false".toList
  | .number n => n.text
  | .string s => quoted s
  | .array items => '[' :: itemsText items ++ [']']
  | .object members => '{' :: membersText members ++ ['}']

/-- The texts of the items of an array, separated by commas. -/
def itemsText : List Json → List Char
  | [] => []
  | [v] => v.text
  | v :: rest => v.text ++ ',' :: itemsText rest

/-- The texts of the members of an object, separated by commas, each behind its quoted name. -/
def membersText : List (String × Json) → List Char
  | [] => []
  | [(k, v)] => quoted k ++ ':' :: v.text
  | (k, v) :: rest => quoted k ++ ':' :: v.text ++ ',' :: membersText rest

end

/-- The compact text of a value (`text`) as a string. -/
def compact (v : Json) : String :=
  String.ofList v.text

end WorkflowTemplates.Json
