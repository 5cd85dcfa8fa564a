import WorkflowTemplates.Json.Node
import WorkflowTemplates.Json.Printer

/-!
# Reading JSON texts

A cursor is the text that is left and its place. Strings are read one character at a time by a small
machine, which also joins the two halves of an escaped character above U+FFFF; arrays and objects by
recursion on a bound for the characters that are left. A string or number without a value is passed
over, and the reading goes on behind it. `Json.read` gives the value of a whole text, in which at
most 127 containers stand inside each other.
-/

namespace WorkflowTemplates.Json

/-- The text that is left, and the place of its first character in the whole text. -/
structure Cursor where
  text : List Char
  position : Position

/-- The start of the text `s`, in line one before its first byte. -/
def Cursor.start (s : List Char) : Cursor :=
  ⟨s, ⟨1, 0⟩⟩

/-- The cursor behind the next character; at the end of the text it stays. -/
def Cursor.next (c : Cursor) : Cursor :=
  match c.text with
  | [] => c
  | ch :: s => ⟨s, c.position.after ch⟩

/-- The place one byte behind another place, or at the start of the next line, at which a character
is reported. -/
def Position.peek (p : Position) : List Char → Position
  | [] => p
  | c :: _ => if c = '\n' then ⟨p.line + 1, 0⟩ else ⟨p.line, p.column + 1⟩

/-- The fault `f` at the next character (`Position.peek`), or at the end of the text. -/
def Cursor.fault (c : Cursor) (f : Fault) : TextError :=
  ⟨f, c.position.peek c.text⟩

/-- The blanks of the JSON grammar, which are fewer than those of `Text.isBlank`. -/
def isBlank (c : Char) : Bool :=
  c == ' ' || c == '\n' || c == '\t' || c == '\r'

/-- The cursor behind the blanks at its front (`isBlank`). -/
def Cursor.skipBlanks (c : Cursor) : Cursor :=
  go c.text c.position
where
  go : List Char → Position → Cursor
    | [], p => ⟨[], p⟩
    | ch :: s, p => if isBlank ch then go s (p.after ch) else ⟨ch :: s, p⟩

/-! ## Strings -/

/-- The state of reading inside a string: between characters, behind a backslash, among the four
digits of an escape whose bytes are `left` to come, or between the halves of a character above
U+FFFF. -/
inductive StringState
  | plain
  | escape
  | digits (high : Option Nat) (left : Nat) (value : Option Nat)
  | pairBackslash (high : Nat)
  | pairMark (high : Nat)

/-- The character of an escape of one letter, by the grammar of JSON. -/
def shortEscape? : Char → Option Char
  | '"' => some '"'
  | '\\' => some '\\'
  | '/' => some '/'
  | 'b' => some '\x08'
  | 'f' => some '\x0c'
  | 'n' => some '\n'
  | 'r' => some '\r'
  | 't' => some '\t'
  | _ => none

/-- Whether `n` is the first half of a character above U+FFFF, a high surrogate of UTF-16. -/
def isHighSurrogate (n : Nat) : Bool :=
  0xd800 ≤ n && n ≤ 0xdbff

/-- Whether `n` is the second half of a character above U+FFFF, a low surrogate of UTF-16. -/
def isLowSurrogate (n : Nat) : Bool :=
  0xdc00 ≤ n && n ≤ 0xdfff

/-- The characters of a string up to its closing quote, and the cursor behind that. Two escapes that
are the halves of a character above U+FFFF make one character; a half alone is a fault. -/
def readString : StringState → List Char → Position → Except TextError (List Char × Cursor)
  | _, [], p => .error ⟨.endInString, p⟩
  | .plain, c :: s, p =>
    if c = '"' then .ok ([], ⟨s, p.after c⟩)
    else if c = '\\' then readString .escape s (p.after c)
    else if c < ' ' then .error ⟨.controlCharacter, p.after c⟩
    else (readString .plain s (p.after c)).map fun (text, rest) => (c :: text, rest)
  | .escape, c :: s, p =>
    match shortEscape? c with
    | some d => (readString .plain s (p.after c)).map fun (text, rest) => (d :: text, rest)
    | none =>
      if c = 'u' then readString (.digits none 4 (some 0)) s (p.after c)
      else .error ⟨.invalidEscape, p.peek (c :: s)⟩
  | .digits high left value, c :: s, p =>
    let value := value.bind fun v => (Text.Hex.digitValue? c).map (16 * v + ·)
    if c.utf8Size < left then readString (.digits high (left - c.utf8Size) value) s (p.after c)
    else
      let q := if c = '\n' then p.after c else ⟨p.line, p.column + left⟩
      match value, high with
      | none, _ => .error ⟨.invalidEscape, q⟩
      | some v, none =>
        if isLowSurrogate v then .error ⟨.loneSurrogate, q⟩
        else if isHighSurrogate v then readString (.pairBackslash v) s q
        else (readString .plain s q).map fun (text, rest) => (Char.ofNat v :: text, rest)
      | some v, some h =>
        if isLowSurrogate v then
          let joined := Char.ofNat (0x10000 + (h - 0xd800) * 0x400 + (v - 0xdc00))
          (readString .plain s q).map fun (text, rest) => (joined :: text, rest)
        else .error ⟨.loneSurrogate, q⟩
  | .pairBackslash high, c :: s, p =>
    if c = '\\' then readString (.pairMark high) s (p.after c)
    else .error ⟨.endOfEscapePair, p.peek (c :: s)⟩
  | .pairMark high, c :: s, p =>
    if c = 'u' then readString (.digits (some high) 4 (some 0)) s (p.after c)
    else .error ⟨.endOfEscapePair, p.peek (c :: s)⟩

/-- The state inside a string that is skipped: between characters, behind a backslash, or among the
digits of an escape whose bytes are `left` to come and which may all be digits so far. -/
inductive SkipState
  | plain
  | escape
  | digits (left : Nat) (valid : Bool)

/-- The cursor behind the closing quote of a string whose value nobody asks for. Escapes need four
digits, but they need not stand for characters. -/
def skipString : SkipState → List Char → Position → Except TextError Cursor
  | _, [], p => .error ⟨.endInString, p⟩
  | .plain, c :: s, p =>
    if c = '"' then .ok ⟨s, p.after c⟩
    else if c = '\\' then skipString .escape s (p.after c)
    else if c < ' ' then .error ⟨.controlCharacter, p⟩
    else skipString .plain s (p.after c)
  | .escape, c :: s, p =>
    if (shortEscape? c).isSome then skipString .plain s (p.after c)
    else if c = 'u' then skipString (.digits 4 true) s (p.after c)
    else .error ⟨.invalidEscape, p.peek (c :: s)⟩
  | .digits left valid, c :: s, p =>
    let valid := valid && (Text.Hex.digitValue? c).isSome
    if c.utf8Size < left then skipString (.digits (left - c.utf8Size) valid) s (p.after c)
    else
      let q := if c = '\n' then p.after c else ⟨p.line, p.column + left⟩
      if valid then skipString .plain s q else .error ⟨.invalidEscape, q⟩

/-! ## Nodes -/

/-- What stands at a cursor: a value and the cursor behind it; the error of a value that does not
exist, and the cursor behind its text; or the end of all reading. -/
inductive Found (α : Type)
  | value (v : α) (rest : Cursor)
  | flaw (e : TextError) (rest : Cursor)
  | stopped (b : Break)

/-- What a reader found whose errors end all reading (`Found.stopped`). -/
def Found.ofExcept {α : Type} : Except TextError (α × Cursor) → Found α
  | .ok (v, rest) => .value v rest
  | .error e => .stopped e.toBreak

/-- The string at the cursor, which stands behind the opening quote. If it has no value, it is
skipped to find where it ends (`skipString`). -/
def readStringAt (c : Cursor) : Found String :=
  match readString .plain c.text c.position with
  | .ok (text, rest) => .value (String.ofList text) rest
  | .error e =>
    match skipString .plain c.text c.position with
    | .ok rest => .flaw e rest
    | .error skipped => .stopped ⟨e, skipped⟩

/-- The cursor behind the characters of a word, or the fault of the first one that differs. -/
def readWord : List Char → Cursor → Except TextError Cursor
  | [], c => .ok c
  | w :: word, c =>
    match c.text with
    | [] => .error ⟨.endInValue, c.position⟩
    | ch :: _ => if ch = w then readWord word c.next else .error (c.fault .expectedWord)

/-- The cursor behind characters of one byte each, of which a later text is left. -/
def Cursor.advanceTo (c : Cursor) (rest : List Char) : Cursor :=
  ⟨rest, ⟨c.position.line, c.position.column + (c.text.length - rest.length)⟩⟩

/-- The number at the cursor (`readNumber`). One that is too large ends behind the digits that are
left. -/
def readNumberAt (c : Cursor) : Found Number :=
  match readNumber c.text with
  | .ok (n, rest) => .value n (c.advanceTo rest)
  | .error (.ended, rest) =>
    let c := c.advanceTo rest
    .stopped ⟨c.fault .endInNumber, c.fault .invalidNumber⟩
  | .error (.malformed, rest) => .stopped ((c.advanceTo rest).fault .invalidNumber).toBreak
  | .error (.tooLarge, rest) =>
    .flaw ⟨.numberOutOfRange, (c.advanceTo rest).position⟩
      (c.advanceTo (rest.dropWhile Text.isDigit))

/-- The value of a word at the cursor, which stands before its first letter. -/
def readWordAt (word : String) (value : Scalar) (c : Cursor) : Found Scalar :=
  .ofExcept ((readWord word.toList c).map fun rest => (value, rest))

/-- What was found, with the function `f` applied to the value. -/
def Found.map {α β : Type} (f : α → β) : Found α → Found β
  | .value v rest => .value (f v) rest
  | .flaw e rest => .flaw e rest
  | .stopped b => .stopped b

/-- The value without parts at the cursor, which stands before a character; the character decides
what it is. -/
def readScalar (c : Cursor) : Found Scalar :=
  match c.text with
  | [] => .stopped (TextError.mk .endInValue c.position).toBreak
  | ch :: _ =>
    if ch = '"' then (readStringAt c.next).map .string
    else if ch = 'n' then readWordAt "null" .null c
    else if ch = 't' then readWordAt "true" (.bool true) c
    else if ch = 'f' then readWordAt "false" (.bool false) c
    else if ch = '-' || Text.isDigit ch then (readNumberAt c).map .number
    else .stopped (c.fault .expectedValue).toBreak

/-- The place at which a repeated name is reported; an object may close behind a name only in a
broken text. -/
def nameEnd (c : Cursor) : Position :=
  match c.text with
  | '}' :: _ => c.next.position
  | _ => c.position

/-- How a container ends at the next character, which is the fault `read` for those who read and
`skipped` for those who skip. -/
def Cursor.stop (c : Cursor) (read skipped : Fault) : Closing :=
  .broken ⟨c.fault read, c.fault skipped⟩

mutual

/-- The node at the cursor and the cursor behind it. The first argument bounds the recursion; four
times the length of the text is enough. -/
def readNode : Nat → Cursor → Node × Cursor
  | 0, c => (.broken c.position (c.fault .tooDeep).toBreak, c)
  | bound + 1, c =>
    let c := c.skipBlanks
    match c.text with
    | '[' :: _ =>
      let (items, closing, rest) := readItems bound true c.next
      (.array c.position items closing, rest)
    | '{' :: _ =>
      let (members, closing, rest) := readMembers bound true c.next
      (.object c.position members closing, rest)
    | _ =>
      match readScalar c with
      | .value v rest => (.scalar c.position v rest.position, rest)
      | .flaw e rest => (.flawed c.position e, rest)
      | .stopped b => (.broken c.position b, c)

/-- The items of an array up to its bracket, and how it closes; `first` tells whether an item may
stand there without a comma. -/
def readItems : Nat → Bool → Cursor → List Node × Closing × Cursor
  | 0, _, c => ([], c.stop .tooDeep .tooDeep, c)
  | bound + 1, first, c =>
    let c := c.skipBlanks
    match c.text with
    | [] => ([], c.stop .endInArray .endInArray, c)
    | ']' :: _ => ([], .text c.next.position, c.next)
    | ch :: _ =>
      if first then readItem bound c
      else if ch = ',' then
        let c := c.next.skipBlanks
        match c.text with
        | [] => ([], c.stop .endInValue .endInValue, c)
        | ']' :: _ => ([], c.stop .trailingComma .expectedValue, c)
        | _ => readItem bound c
      else ([], c.stop .expectedCommaOrBracket .expectedCommaOrBracket, c)

/-- An item of an array and all items behind it (`readItems`), none if the item breaks off. -/
def readItem : Nat → Cursor → List Node × Closing × Cursor
  | 0, c => ([], c.stop .tooDeep .tooDeep, c)
  | bound + 1, c =>
    let (node, rest) := readNode bound c
    match node.break? with
    | some b => ([node], .broken b, rest)
    | none =>
      let (items, closing, rest) := readItems bound false rest
      (node :: items, closing, rest)

/-- The members of an object up to its brace, and how it closes; `first` tells whether a member may
stand there without a comma. -/
def readMembers : Nat → Bool → Cursor → List (Name × Node) × Closing × Cursor
  | 0, _, c => ([], c.stop .tooDeep .tooDeep, c)
  | bound + 1, first, c =>
    let c := c.skipBlanks
    match c.text with
    | [] => ([], c.stop .endInObject .endInObject, c)
    | '}' :: _ => ([], .text c.next.position, c.next)
    | '"' :: _ =>
      if first then readMember bound c
      else ([], c.stop .expectedCommaOrBrace .expectedCommaOrBrace, c)
    | ch :: _ =>
      if first then ([], c.stop .nameNotString .nameNotString, c)
      else if ch = ',' then
        let c := c.next.skipBlanks
        match c.text with
        | [] => ([], c.stop .endInValue .endInObject, c)
        | '"' :: _ => readMember bound c
        | '}' :: _ => ([], c.stop .trailingComma .nameNotString, c)
        | _ => ([], c.stop .nameNotString .nameNotString, c)
      else ([], c.stop .expectedCommaOrBrace .expectedCommaOrBrace, c)

/-- A member of an object, from its opening quote on, and all members behind it (`readContent`). -/
def readMember : Nat → Cursor → List (Name × Node) × Closing × Cursor
  | 0, c => ([], c.stop .tooDeep .tooDeep, c)
  | bound + 1, c =>
    match readStringAt c.next with
    | .stopped b => ([], .broken b, c)
    | .value name rest => readContent bound (.ok name) rest.skipBlanks
    | .flaw e rest => readContent bound (.error e) rest.skipBlanks

/-- The content of a member, from behind its name and the blanks after it on, and all members behind
it (`readMembers`). -/
def readContent : Nat → Except TextError String → Cursor → List (Name × Node) × Closing × Cursor
  | 0, _, c => ([], c.stop .tooDeep .tooDeep, c)
  | bound + 1, text, c =>
    let name : Name := ⟨text, some (nameEnd c)⟩
    match c.text with
    | ':' :: _ =>
      let (node, rest) := readNode bound c.next
      match node.break? with
      | some b => ([(name, node)], .broken b, rest)
      | none =>
        let (members, closing, rest) := readMembers bound false rest
        ((name, node) :: members, closing, rest)
    | [] =>
      let b := (c.fault .endInObject).toBreak
      ([(name, .broken c.position b)], .broken b, c)
    | _ =>
      let b := (c.fault .expectedColon).toBreak
      ([(name, .broken c.position b)], .broken b, c)

end

/-- The first node of the text `s` and the cursor behind it; four steps for each character are
enough for `readNode`. -/
def Node.read (s : List Char) : Node × Cursor :=
  readNode (4 * s.length + 4) (.start s)

/-- The fault of a text that goes on behind its value with anything but blanks. -/
def Cursor.trailing? (c : Cursor) : Option TextError :=
  let c := c.skipBlanks
  if c.text.isEmpty then none else some (c.fault .trailingCharacters)

/-- How many containers of a text may stand inside each other; `Node.firstError` takes the bound. -/
def maxDepth : Nat := 127

/-- The value of the whole text `s`: the first error of its node counts, then a text that goes on
behind it. -/
def read (s : List Char) : Except TextError Json :=
  let (node, rest) := Node.read s
  match (node.firstError maxDepth).or rest.trailing? with
  | some e => .error e
  | none => .ok node.value

/-- The value of bytes that are a JSON text in UTF-8; faults of the encoding and of the text are not
told apart. -/
def readBytes? (bytes : List UInt8) : Option Json :=
  (String.fromUTF8? ⟨bytes.toArray⟩).bind fun s => (read s.toList).toOption

/-- The bytes of the compact text of a value in UTF-8 (`compact`). -/
def toBytes (v : Json) : List UInt8 :=
  v.compact.toUTF8.data.toList

end WorkflowTemplates.Json
