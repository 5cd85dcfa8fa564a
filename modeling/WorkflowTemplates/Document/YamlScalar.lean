import WorkflowTemplates.Decimal.Layout
import WorkflowTemplates.Decimal.Numeral

/-!
# Texts in YAML

A text is written plain if it would be read back as that text. A text that would be read as null, a
truth value or a number is quoted, and so is one that starts or holds marks of the format; a text
of several lines is a literal block. What neither form can hold is written between double quotes,
with escapes.
-/

namespace WorkflowTemplates.Yaml

/-- How a text is written in YAML: as it is, between single or double quotes, or as a literal block.
-/
inductive Style
  | plain
  | single
  | double
  | literal
  deriving DecidableEq

/-- Whether `c` ends a line in YAML. -/
def isBreak (c : Char) : Bool :=
  c == '\n' || c == '\r' || c == '\u0085' || c == '\u2028' || c == '\u2029'

/-- Whether `c` is a space, a tab, the end of a line (`isBreak`), or NUL, which stands for the end
of the text as well. -/
def isGap (c : Char) : Bool :=
  c == ' ' || c == '\t' || c == '\x00' || isBreak c

/-- Whether `c` stands for itself, that is, belongs to the printable characters of YAML other than
the tab and the byte order mark. -/
def isPrintable (c : Char) : Bool :=
  c == '\n' || (' ' ≤ c && c ≤ '~') || ('\u00a0' ≤ c && c ≤ '\ud7ff')
    || ('\ue000' ≤ c && c ≤ '\ufffd' && c != '\ufeff') || 0xffff < c.toNat

/-! ## Texts that would be read as something else -/

/-- Whether the text `s` is digits with a leading zero before further ones, after at most one sign.
-/
def isZeroPadded (s : List Char) : Bool :=
  match (Decimal.takeSign s).2 with
  | '0' :: c :: rest => (c :: rest).all Text.isDigit
  | _ => false

/-- The value of the digits `s` in a radix, if there are any and they stay below `2 ^ 128`. -/
def magnitude? (radix : Nat) (s : List Char) : Option Nat :=
  if s.isEmpty then none
  else (Decimal.magnitude radix (pow2 128) .tooLarge 0 s).toOption

/-- The radix that a mark at the front of a text names, and the text behind the mark; without a mark
the radix is ten. -/
def takeRadix : List Char → Nat × List Char
  | '0' :: 'x' :: s => (16, s)
  | '0' :: 'o' :: s => (8, s)
  | '0' :: 'b' :: s => (2, s)
  | s => (10, s)

/-- Whether the text `s`, written plain, would be read as an integer of at most 128 bits, signed or
unsigned. -/
def isInteger (s : List Char) : Bool :=
  let (negative, digits) := Decimal.takeSign s
  let (radix, digits) := takeRadix digits
  let limit := if negative then pow2 127 else pow2 128 - 1
  !isZeroPadded s && (magnitude? radix digits).any (· ≤ limit)

/-- Whether the text `s`, written plain, would be read as a floating-point number: a finite one in
digits, or one of the words for infinity and NaN. -/
def isFloat (s : List Char) : Bool :=
  let word := String.ofList s
  let unsigned := match s with
    | '+' :: t => t
    | t => t
  let doubleSign := match s with
    | '+' :: '+' :: _ | '+' :: '-' :: _ => true
    | _ => false
  !isZeroPadded s && !doubleSign
    && ([".inf", ".Inf", ".INF"].contains (String.ofList unsigned)
      || ["-.inf", "-.Inf", "-.INF", ".nan", ".NaN", ".NAN"].contains word
      || (Decimal.readFloat unsigned).toOption.any (·.isFinite))

/-- Whether the text `s`, written plain, would be read as null, a truth value or a number; a number
with a leading zero counts too. -/
def isAmbiguous (s : List Char) : Bool :=
  ["", "null", "Null", "NULL", "~", "true", "True", "TRUE", "false", "False", "FALSE"].contains
      (String.ofList s)
    || isInteger s || isFloat s || isZeroPadded s

/-! ## Texts that a form cannot hold -/

/-- Whether the text starts with a mark of YAML: an indicator character, an indicator that a gap
follows, or the marker of a document. -/
def startsMarked : List Char → Bool
  | '-' :: '-' :: '-' :: _ | '.' :: '.' :: '.' :: _ => true
  | c :: rest =>
    "#,[]\x7b\x7d&*!|>'\"%@`".toList.contains c
      || ((c == '?' || c == ':' || c == '-') && rest.head?.all isGap)
  | [] => false

/-- Whether the text holds a colon before a gap, or a number sign behind one (`isGap`), past its
first character. -/
def holdsMark : List Char → Bool
  | a :: b :: rest =>
    (b == ':' && rest.head?.all isGap) || (b == '#' && isGap a) || holdsMark (b :: rest)
  | _ => false

/-- Whether somewhere in the text a character of the class `first` stands directly before one of the
class `second`. -/
def holdsPair (first second : Char → Bool) : List Char → Bool
  | a :: b :: rest => (first a && second b) || holdsPair first second (b :: rest)
  | _ => false

/-- Whether `c` is the space character. -/
def isSpace (c : Char) : Bool :=
  c == ' '

/-- Whether no form but double quotes holds the text `s`: it has a character that does not stand for
itself (`isPrintable`), or a space at the end of a line. -/
def needsEscapes (s : List Char) : Bool :=
  s.any (!isPrintable ·) || holdsPair isSpace isBreak s

/-- Whether the text `s` can be written plain: no mark, space or end of a line is in the way, and
nothing has to be escaped. -/
def fitsPlain (s : List Char) : Bool :=
  !(startsMarked s || holdsMark s || s.head?.any isSpace || s.getLast?.any isSpace
    || s.any isBreak || needsEscapes s)

/-- Whether the text `s` can stand between single quotes: no line of it starts with a space, and
nothing has to be escaped. -/
def fitsSingle (s : List Char) : Bool :=
  !(holdsPair isBreak isSpace s || needsEscapes s)

/-- Whether the text `s` can be a literal block: it does not end in a space, and nothing has to be
escaped. -/
def fitsLiteral (s : List Char) : Bool :=
  !(s.getLast?.any isSpace || needsEscapes s)

/-- How the text `s` is written: several lines as a literal block if that can be; one line plain if
it is read back as that text, else between single quotes; and between double quotes if nothing else
holds it. -/
def style (s : List Char) : Style :=
  if s.contains '\n' then (if fitsLiteral s then .literal else .double)
  else if !isAmbiguous s && fitsPlain s then .plain
  else if fitsSingle s then .single
  else .double

/-! ## The written forms -/

/-- The hexadecimal digits of `n` in upper case, filled with zeros up to `width`. -/
def hexDigits (width n : Nat) : List Char :=
  let digits := (Nat.toDigits 16 n).map Char.toUpper
  List.replicate (width - digits.length) '0' ++ digits

/-- How `c` is written between double quotes: as it is, or behind a backslash by a letter or by its
number. -/
def escaped (c : Char) : List Char :=
  if isPrintable c && !isBreak c && c != '"' && c != '\\' then [c]
  else
    '\\' :: match c with
      | '\x00' => ['0']
      | '\x07' => ['a']
      | '\x08' => ['b']
      | '\t' => ['t']
      | '\n' => ['n']
      | '\x0b' => ['v']
      | '\x0c' => ['f']
      | '\r' => ['r']
      | '\x1b' => ['e']
      | '"' => ['"']
      | '\\' => ['\\']
      | '\u0085' => ['N']
      | '\u2028' => ['L']
      | '\u2029' => ['P']
      | c =>
        if c.toNat ≤ 0xff then 'x' :: hexDigits 2 c.toNat
        else if c.toNat ≤ 0xffff then 'u' :: hexDigits 4 c.toNat
        else 'U' :: hexDigits 8 c.toNat

/-- The characters of lines, each as `write` has it. What follows the end of a line starts behind
`indent`, which an empty line does not get; the flag tells whether the end of a line was just
written. -/
def indentLines (indent : List Char) (write : Char → List Char) : Bool → List Char → List Char
  | _, [] => []
  | fresh, c :: s =>
    if isBreak c then c :: indentLines indent write true s
    else (if fresh then indent else []) ++ write c ++ indentLines indent write false s

/-- The text `s` between single quotes, where a quote is doubled; further lines start in `column`.
-/
def singleQuoted (column : Nat) (s : List Char) : List Char :=
  let indent := List.replicate column ' '
  let quote (c : Char) := if c = '\'' then ['\'', '\''] else [c]
  let last := if s.getLast?.any isBreak then indent else []
  '\'' :: indentLines indent quote false s ++ last ++ ['\'']

/-- The header of the literal block of `s`: the indentation if the text starts with a space or the
end of a line, and by `+` or `-` how many line ends behind the text are kept. -/
def literalHeader (s : List Char) : List Char :=
  let indentation := if s.head?.any fun c => isSpace c || isBreak c then ['2'] else []
  let chomping := match s.reverse with
    | [] => ['-']
    | [c] => if isBreak c then ['+'] else ['-']
    | c :: d :: _ => if !isBreak c then ['-'] else if isBreak d then ['+'] else []
  '|' :: indentation ++ chomping

/-- The literal block of `s` in `column`, under its `literalHeader` and with the end of its last
line. -/
def literalBlock (column : Nat) (s : List Char) : List Char :=
  literalHeader s ++ '\n' :: indentLines (List.replicate column ' ') (fun c => [c]) true s
    ++ (if s.getLast?.any isBreak then [] else ['\n'])

/-- The text `s` in a style that YAML also has inside a line; a text of several lines between single
quotes goes on in `column`. -/
def inlineText (style : Style) (column : Nat) (s : List Char) : List Char :=
  match style with
  | .plain => s
  | .double => '"' :: s.flatMap escaped ++ ['"']
  | .single | .literal => singleQuoted column s

/-- The text `s` in its `style`, and the end of the line behind it; further lines of it start in
`column`. -/
def scalarLine (column : Nat) (s : List Char) : List Char :=
  match style s with
  | .literal => literalBlock column s
  | style => inlineText style column s ++ ['\n']

/-- The number of bytes of the text `s` in UTF-8. -/
def byteLength (s : List Char) : Nat :=
  s.foldl (fun n c => n + c.utf8Size) 0

/-- Whether the text `s` is written as a simple key, before a colon: one line of at most 128 bytes.
-/
def isSimpleKey (s : List Char) : Bool :=
  !s.any isBreak && byteLength s ≤ 128

end WorkflowTemplates.Yaml
