import WorkflowTemplates.Decimal.Integer
import WorkflowTemplates.Decimal.Numeral
import WorkflowTemplates.Source.Literal
import WorkflowTemplates.Source.Scan
import WorkflowTemplates.Text.Blank
import WorkflowTemplates.Text.Letter

/-!
# Reading literals

Every reader takes a value off the front of a text and leaves the rest, or says why there is none
(`ReadFault`). Between tokens blanks, backslashes and comments are skipped. Strings are read by a
small machine that decodes escapes (`readContent`); strings side by side are one string. A number
may have any run of signs, and a real number before a signed imaginary one makes a complex number.
Values that hold values are read by recursion on a bound for the characters that are left.
-/

namespace WorkflowTemplates.Literal

open Text (isBlank isDigit isWordChar isLetter)

/-! ## Faults -/

/-- Why source text is no literal of the fragment that is read here. -/
inductive ReadFault
  | unexpectedEnd
  | unexpectedCharacter (c : Char)
  | unterminatedString
  | truncatedEscape
  | invalidEscape (digits : String)
  | expectedNumber
  | radixInteger (e : Decimal.IntegerError)
  | decimalInteger (text : String) (e : Decimal.IntegerError)
  | float (text : String) (e : Decimal.FloatError)
  | imaginary (text : String) (e : Decimal.FloatError)
  | noLiteral (name : String)
  | namedArgumentsOnly (name : String)
  | callSeparator (name : String)
  | separator (close : Char)
  | expectedFound (expected found : Char)
  | expectedAtEnd (expected : Char)
  | trailing (text : String)
  deriving DecidableEq

/-- The character `c` between single quotes, as messages show it. -/
def shown (c : Char) : String :=
  String.ofList ['\'', c, '\'']

/-- The text `s` between single quotes, as messages show it. -/
def shownText (s : String) : String :=
  "'" ++ s ++ "'"

/-- The wording of a fault, behind what it is about in the messages of defaults and type hints. -/
def ReadFault.message : ReadFault → String
  | unexpectedEnd => "unexpected end of input"
  | unexpectedCharacter c => "unexpected character " ++ shown c
  | unterminatedString => "unterminated string literal"
  | truncatedEscape => "truncated escape sequence"
  | invalidEscape digits => "invalid escape sequence " ++ shownText digits
  | expectedNumber => "expected a number"
  | radixInteger e => "invalid integer literal: " ++ e.message
  | decimalInteger text e => "invalid integer literal " ++ shownText text ++ ": " ++ e.message
  | float text e => "invalid float literal " ++ shownText text ++ ": " ++ e.message
  | imaginary text e => "invalid imaginary literal " ++ shownText text ++ ": " ++ e.message
  | noLiteral name => shownText name ++ " is not a literal"
  | namedArgumentsOnly name => shownText name ++ " accepts keyword arguments only"
  | callSeparator name => "expected ',' or ')' in call to " ++ shownText name
  | separator close => "expected ',' or " ++ shown close
  | expectedFound expected found => "expected " ++ shown expected ++ ", found " ++ shown found
  | expectedAtEnd expected => "expected " ++ shown expected ++ ", found end of input"
  | trailing text => "unexpected trailing input " ++ shownText text

/-! ## Gaps -/

/-- The text behind blanks, backslashes and comments; the flag tells that a comment is open. -/
def skipFrom : Bool → List Char → List Char
  | _, [] => []
  | true, c :: s => if c = '\n' then skipFrom false s else skipFrom true s
  | false, c :: s =>
    if isBlank c || c == '\\' then skipFrom false s
    else if c = '#' then skipFrom true s
    else c :: s

/-- The text `s` behind blanks, backslashes and comments (`skipFrom`), which may stand between any
two tokens. -/
def skip (s : List Char) : List Char :=
  skipFrom false s

/-! ## Strings -/

/-- How a string is written: its quote, and whether it is raw or long in the sense of Python. -/
structure Quoting where
  quote : Char
  /-- Whether backslashes stand for themselves. -/
  raw : Bool
  /-- Whether three quotes stand around the string. -/
  long : Bool

/-- The state inside a string: between characters, behind a backslash, or among the digits of an
escape, of which some were read and some are to come. -/
inductive StringState
  | plain
  | escape
  | digits (read : List Char) (left : Nat)

/-- The character that the digits of an escape stand for, if there is one; one plus sign before them
is passed over. -/
def escapeValue? (digits : List Char) : Option Char :=
  let digits := match digits with
    | '+' :: rest => rest
    | _ => digits
  match Decimal.magnitude 16 0xffffffff .tooLarge 0 digits with
  | .ok n => if h : n.isValidChar then some (Char.ofNatAux n h) else none
  | .error _ => none

/-- What an escape of one character stands for; behind a backslash the end of a line stands for
nothing. -/
def shortEscape? : Char → Option (List Char)
  | 'n' => some ['\n']
  | 't' => some ['\t']
  | 'r' => some ['\r']
  | '0' => some ['\x00']
  | '\\' => some ['\\']
  | '\'' => some ['\'']
  | '"' => some ['"']
  | '\n' => some []
  | _ => none

/-- The number of digits behind the mark of an escape by number, by Python's grammar of string
literals. -/
def escapeDigits? : Char → Option Nat
  | 'x' => some 2
  | 'u' => some 4
  | 'U' => some 8
  | _ => none

/-- The content that goes on with the given characters in front, and what follows it; an error
stays. -/
def prepend (chars : List Char) (r : Except ReadFault (List Char × List Char)) :
    Except ReadFault (List Char × List Char) :=
  r.map fun (text, rest) => (chars ++ text, rest)

/-- The text behind two quotes that follow a first one, if they do: three quotes open or close a
long string. -/
def behindTwo? (quote : Char) : List Char → Option (List Char)
  | a :: b :: s => if a = quote ∧ b = quote then some s else none
  | _ => none

/-- The characters of a string up to its closing quotes, and what follows them. A short string must
end on its line; an escape that is none stands for itself, its backslash included. -/
def readContent (q : Quoting) : StringState → List Char → Except ReadFault (List Char × List Char)
  | .digits .., [] => .error .truncatedEscape
  | _, [] => .error .unterminatedString
  | .plain, c :: s =>
    if c = q.quote && !q.long then .ok ([], s)
    else if c = q.quote && (behindTwo? q.quote s).isSome then .ok ([], s.drop 2)
    else if c = '\n' && !q.long then .error .unterminatedString
    else if c = '\\' then readContent q .escape s
    else prepend [c] (readContent q .plain s)
  | .escape, c :: s =>
    if q.raw then prepend ['\\', c] (readContent q .plain s)
    else match shortEscape? c, escapeDigits? c with
      | some chars, _ => prepend chars (readContent q .plain s)
      | none, some n => readContent q (.digits [] n) s
      | none, none => prepend ['\\', c] (readContent q .plain s)
  | .digits read left, c :: s =>
    if 1 < left then readContent q (.digits (read ++ [c]) (left - 1)) s
    else match escapeValue? (read ++ [c]) with
      | some d => prepend [d] (readContent q .plain s)
      | none => .error (.invalidEscape (String.ofList (read ++ [c])))

/-- Whether `c` is a prefix of strings; those of bytes and of formatted strings are none, since
these are no literals here. -/
def isStringPrefix (c : Char) : Bool :=
  c == 'r' || c == 'R' || c == 'u' || c == 'U'

/-- The quote that opens a string at the front of a text behind at most one prefix, whether the
string is raw, and the text behind the quote. -/
def opensString? : List Char → Option (Bool × Char × List Char)
  | [] => none
  | c :: s =>
    if Source.isQuote c then some (false, c, s)
    else if isStringPrefix c then
      match s with
      | q :: t => if Source.isQuote q then some (c == 'r' || c == 'R', q, t) else none
      | [] => none
    else none

/-- A string from behind its first quote on (`readContent`), and what follows it; two more quotes
make it a long one. -/
def readString (raw : Bool) (quote : Char) (s : List Char) :
    Except ReadFault (List Char × List Char) :=
  match behindTwo? quote s with
  | some t => readContent ⟨quote, raw, true⟩ .plain t
  | none => readContent ⟨quote, raw, false⟩ .plain s

/-- The strings at the front of a text, joined, and what follows the last one: strings side by side
are one, as in Python. The first argument bounds their number. -/
def readStrings : Nat → List Char → Except ReadFault (List Char × List Char)
  | 0, _ => .error .unexpectedEnd
  | bound + 1, s =>
    match opensString? s with
    | none => .error .unexpectedEnd
    | some (raw, quote, t) => do
      let (text, rest) ← readString raw quote t
      if (opensString? (skip rest)).isSome then
        prepend text (readStrings bound (skip rest))
      else .ok (text, rest)

/-! ## Numbers -/

/-- The characters from which a number is read, and the text behind them; a sign is taken directly
behind the mark of an exponent only, which the flag tells. -/
def numeralRun : Bool → List Char → List Char × List Char
  | _, [] => ([], [])
  | afterMark, c :: s =>
    let take (mark : Bool) := let (run, rest) := numeralRun mark s; (c :: run, rest)
    if isDigit c || c == '_' || c == '.' then take false
    else if c == 'e' || c == 'E' then take true
    else if afterMark && (c == '+' || c == '-') then take false
    else ([], c :: s)

/-- The radix that a letter behind a leading zero stands for, in either case. -/
def radix? (c : Char) : Option Nat :=
  if c == 'x' || c == 'X' then some 16
  else if c == 'o' || c == 'O' then some 8
  else if c == 'b' || c == 'B' then some 2
  else none

/-- The radix of a number with a radix mark (`radix?`), and the text behind the mark. -/
def takeRadix? : List Char → Option (Nat × List Char)
  | '0' :: c :: s => (radix? c).map fun radix => (radix, s)
  | _ => none

/-- The integer behind a radix mark, underscores left out, and what follows it. The run of letters
and digits belongs to it, so that a wrong one is an error. -/
def readRadix (radix : Nat) (s : List Char) : Except ReadFault (Literal × List Char) :=
  let isPart (c : Char) : Bool := isDigit c || Text.isAsciiLetter c || c == '_'
  match Decimal.readInteger radix ((s.takeWhile isPart).filter (· != '_')) with
  | .ok i => .ok (integer i, s.dropWhile isPart)
  | .error e => .error (.radixInteger e)

/-- The number without radix mark that has the given `digits`, of which underscores are no part, in
front of `rest`: an imaginary one before a `j`, a floating-point number with a point or an exponent,
or an integer. -/
def ofNumeral (digits rest : List Char) : Except ReadFault (Literal × List Char) :=
  let text := String.ofList digits
  match rest with
  | 'j' :: behind | 'J' :: behind =>
    match Decimal.readFloat digits with
    | .ok x => .ok (complex ⟨.zero false, x⟩, behind)
    | .error e => .error (.imaginary text e)
  | _ =>
    if digits.any fun c => c == '.' || c == 'e' || c == 'E' then
      match Decimal.readFloat digits with
      | .ok x => .ok (float x, rest)
      | .error e => .error (.float text e)
    else
      match Decimal.readInteger 10 digits with
      | .ok i => .ok (integer i, rest)
      | .error e => .error (.decimalInteger text e)

/-- A number without sign at the front of a text, and what follows it. -/
def readUnsigned (s : List Char) : Except ReadFault (Literal × List Char) :=
  match takeRadix? s with
  | some (radix, t) => readRadix radix t
  | none =>
    let (run, rest) := numeralRun false s
    let digits := run.filter (· != '_')
    if digits.isEmpty then .error .expectedNumber else ofNumeral digits rest

/-- The number `l` with the other sign; other literals stay. -/
def negated : Literal → Literal
  | integer i => integer (-i)
  | float x => float x.neg
  | complex z => complex ⟨z.re.neg, z.im.neg⟩
  | l => l

/-- Whether the signs at the front of a text make a minus, and the text behind them and behind what
is skipped between them; the first flag tells that a comment is open. -/
def takeSigns : Bool → Bool → List Char → Bool × List Char
  | _, negative, [] => (negative, [])
  | true, negative, c :: s => takeSigns (c != '\n') negative s
  | false, negative, c :: s =>
    if c = '-' then takeSigns false (!negative) s
    else if c = '+' then takeSigns false negative s
    else if isBlank c || c == '\\' then takeSigns false negative s
    else if c = '#' then takeSigns true negative s
    else (negative, c :: s)

/-- A number behind any run of signs (`takeSigns`), and what follows it. -/
def readSigned (s : List Char) : Except ReadFault (Literal × List Char) :=
  let (negative, t) := takeSigns false false s
  (readUnsigned t).map fun (l, rest) => (if negative then negated l else l, rest)

/-- The real part of a complex number that a literal may be: an integer or a floating-point number.
-/
def realPart? : Literal → Option Binary64
  | integer i => some (.ofInt i.toInt)
  | float x => some x
  | _ => none

/-- The imaginary number behind a sign at the front of a text, with the sign applied, and what
follows it. -/
def imaginaryPart? (s : List Char) : Option (Binary64 × List Char) :=
  match skip s with
  | c :: t =>
    if c = '+' || c = '-' then
      match readUnsigned (skip t) with
      | .ok (complex z, rest) => some (if c = '-' then z.im.neg else z.im, rest)
      | _ => none
    else none
  | [] => none

/-- A number at the front of a text, and what follows it: real, imaginary, or a real one and an
imaginary one behind a sign (`imaginaryPart?`). -/
def readNumber (s : List Char) : Except ReadFault (Literal × List Char) := do
  let (l, rest) ← readSigned s
  match realPart? l, imaginaryPart? rest with
  | some re, some (im, behind) => .ok (complex ⟨re, im⟩, behind)
  | _, _ => .ok (l, rest)

/-! ## Values -/

/-- Whether a number starts at the front of a text: with a sign, a digit, or a point before a digit.
-/
def startsNumber : List Char → Bool
  | [] => false
  | c :: s =>
    c == '-' || c == '+' || isDigit c
      || (c == '.' && match s with
        | d :: _ => isDigit d
        | [] => false)

/-- The literal that `name` alone stands for: a truth value or no value. -/
def named? (name : String) : Option Literal :=
  if name = "True" then some (boolean true)
  else if name = "False" then some (boolean false)
  else if name = "None" then some nothing
  else none

/-- Whether `c` may stand in a dotted name. -/
def isNameChar (c : Char) : Bool :=
  isWordChar c || c == '.'

/-- The text behind the character `expected`, before which blanks may stand (`skip`), or which other
one was found. -/
def expect (expected : Char) (s : List Char) : Except ReadFault (List Char) :=
  match skip s with
  | [] => .error (.expectedAtEnd expected)
  | c :: t => if c = expected then .ok t else .error (.expectedFound expected c)

/-- The text from the next part of a container on, and whether a comma stood before it; the bracket
`close` that ends the container is left. Anything else is the given fault. -/
def behindPart (close : Char) (fault : ReadFault) (s : List Char) :
    Except ReadFault (Bool × List Char) :=
  match skip s with
  | [] => .error fault
  | c :: t =>
    if c = ',' then .ok (true, t)
    else if c = close then .ok (false, c :: t)
    else .error fault

mutual

/-- The value at the front of a text, and what follows it; its first character decides what it is.
The first argument bounds the recursion; twice the length of the text is enough. -/
def readValue : Nat → List Char → Except ReadFault (Literal × List Char)
  | 0, _ => .error .unexpectedEnd
  | bound + 1, s =>
    match skip s with
    | [] => .error .unexpectedEnd
    | c :: t =>
      if (opensString? (c :: t)).isSome then
        (readStrings bound (c :: t)).map fun (text, rest) => (string (String.ofList text), rest)
      else if c = '[' then
        (readItems bound ']' t).map fun ((items, _), rest) => (list items, rest)
      else if c = '(' then
        (readItems bound ')' t).map fun ((items, comma), rest) =>
          match items, comma with
          | [l], false => (l, rest)
          | _, _ => (list items, rest)
      else if c = '{' then
        (readEntries bound t).map fun (entries, rest) => (dict entries, rest)
      else if startsNumber (c :: t) then readNumber (c :: t)
      else if isLetter c || c == '_' then readName bound (c :: t)
      else .error (.unexpectedCharacter c)

/-- The literal of a name that stands for one (`named?`), or a call of the name, and what follows
it. -/
def readName : Nat → List Char → Except ReadFault (Literal × List Char)
  | 0, _ => .error .unexpectedEnd
  | bound + 1, s =>
    let name := String.ofList (s.takeWhile isNameChar)
    let rest := s.dropWhile isNameChar
    match named? name, skip rest with
    | some l, _ => .ok (l, rest)
    | none, '(' :: t =>
      (readArguments bound name t).map fun (arguments, rest) => (call name arguments, rest)
    | none, _ => .error (.noLiteral name)

/-- The items up to the bracket `close`, whether a comma stood behind one, which tells a tuple from
a value between parentheses, and what follows. -/
def readItems : Nat → Char → List Char → Except ReadFault ((List Literal × Bool) × List Char)
  | 0, _, _ => .error .unexpectedEnd
  | bound + 1, close, s =>
    if (skip s).head? = some close then .ok (([], false), (skip s).tail)
    else do
      let (l, rest) ← readValue bound s
      let (comma, rest) ← behindPart close (.separator close) rest
      let ((items, comma'), rest) ← readItems bound close rest
      .ok ((l :: items, comma || comma'), rest)

/-- The entries of a dictionary up to its brace, keys and values around a colon, and what follows.
-/
def readEntries : Nat → List Char → Except ReadFault (List (Literal × Literal) × List Char)
  | 0, _ => .error .unexpectedEnd
  | bound + 1, s =>
    if (skip s).head? = some '}' then .ok ([], (skip s).tail)
    else do
      let (key, rest) ← readValue bound s
      let rest ← expect ':' rest
      let (l, rest) ← readValue bound rest
      let (_, rest) ← behindPart '}' (.separator '}') rest
      let (entries, rest) ← readEntries bound rest
      .ok ((key, l) :: entries, rest)

/-- The named arguments of a call of `name` up to its parenthesis, and what follows; other arguments
are refused. -/
def readArguments : Nat → String → List Char →
    Except ReadFault (List (String × Literal) × List Char)
  | 0, _, _ => .error .unexpectedEnd
  | bound + 1, name, s =>
    if (skip s).head? = some ')' then .ok ([], (skip s).tail)
    else
      let key := (skip s).takeWhile isWordChar
      match key, skip ((skip s).dropWhile isWordChar) with
      | _ :: _, '=' :: t => do
        let (l, rest) ← readValue bound t
        let (_, rest) ← behindPart ')' (.callSeparator name) rest
        let (arguments, rest) ← readArguments bound name rest
        .ok ((String.ofList key, l) :: arguments, rest)
      | _, _ => .error (.namedArgumentsOnly name)

end

/-- The literal that the whole text `s` is. What stands behind its value must be nothing but what
`skip` passes over. -/
def read (s : List Char) : Except ReadFault Literal := do
  let (l, rest) ← readValue (2 * s.length + 2) s
  if (skip rest).isEmpty then .ok l
  else .error (.trailing (String.ofList (Text.trim (skip rest))))

end WorkflowTemplates.Literal
