import WorkflowTemplates.Json.Numeral

/-!
# JSON as a reader meets it

A node is a part of a JSON text with its place: members stay in the order of the text, repeated
names included, and where the text breaks off a node says why. So a decoder that walks the nodes in
order meets the faults of the text and its own in the order in which they occur.

A part that nobody asks for is skipped. Skipping only looks for the end of the part: strings and
numbers that have an end but no value are passed over, and some faults are reported in other words.

Places count lines from one and columns in bytes. Values that are in memory are nodes too, without
places.
-/

namespace WorkflowTemplates.Json

/-- A place in a text: the line, counted from one, and the bytes of the line before the place. -/
structure Position where
  line : Nat
  column : Nat
  deriving DecidableEq

/-- The place behind the character `c`, which starts a new line if it is a line feed and else takes
its bytes in UTF-8. -/
def Position.after (p : Position) (c : Char) : Position :=
  if c = '\n' then ⟨p.line + 1, 0⟩ else ⟨p.line, p.column + c.utf8Size⟩

/-- What is wrong with a JSON text, by the grammar of JSON and the bounds of this reader. -/
inductive Fault
  | endInArray
  | endInObject
  | endInString
  | endInValue
  | endInNumber
  | expectedColon
  | expectedCommaOrBracket
  | expectedCommaOrBrace
  | expectedWord
  | expectedValue
  | invalidEscape
  | invalidNumber
  | numberOutOfRange
  | controlCharacter
  | nameNotString
  | loneSurrogate
  | endOfEscapePair
  | trailingComma
  | trailingCharacters
  | tooDeep
  deriving DecidableEq

/-- The wording of a fault; messages that decoders build on it add the place. -/
def Fault.message : Fault → String
  | endInArray => "EOF while parsing a list"
  | endInObject => "EOF while parsing an object"
  | endInString => "EOF while parsing a string"
  | endInValue | endInNumber => "EOF while parsing a value"
  | expectedColon => "expected `:`"
  | expectedCommaOrBracket => "expected `,` or `]`"
  | expectedCommaOrBrace => "expected `,` or `\x7d`"
  | expectedWord => "expected ident"
  | expectedValue => "expected value"
  | invalidEscape => "invalid escape"
  | invalidNumber => "invalid number"
  | numberOutOfRange => "number out of range"
  | controlCharacter => "control character (\\u0000-\\u001F) found while parsing a string"
  | nameNotString => "key must be a string"
  | loneSurrogate => "lone leading surrogate in hex escape"
  | endOfEscapePair => "unexpected end of hex escape"
  | trailingComma => "trailing comma"
  | trailingCharacters => "trailing characters"
  | tooDeep => "recursion limit exceeded"

/-- A fault of a text and the place where it was noticed. -/
structure TextError where
  fault : Fault
  position : Position
  deriving DecidableEq

/-- A text that breaks off: the first error for one who reads the part that breaks off, and the one
for one who skips it. -/
structure Break where
  read : TextError
  skipped : TextError
  deriving DecidableEq

/-- The break that is the same error for one who reads and one who skips. -/
def TextError.toBreak (e : TextError) : Break :=
  ⟨e, e⟩

/-- A JSON value without parts, that is, neither an array nor an object. -/
inductive Scalar
  | null
  | bool (b : Bool)
  | number (n : Number)
  | string (s : String)
  deriving DecidableEq

/-- How an array or an object ends: in `memory`; in a copy `setAside` until the members around it
are known; behind its bracket in a text; or not at all, since the text breaks off. -/
inductive Closing
  | memory
  | setAside
  | text (stop : Position)
  | broken (b : Break)

/-- The name of a member, or the error of a name that ends but has no value, and the place at which
a repeated name is reported: behind the name and the blanks that follow it. -/
structure Name where
  text : Except TextError String
  behind : Option Position

/-- A JSON value with its places: where it starts and, for a value without parts, where it stops. -/
inductive Node
  | scalar (start : Option Position) (value : Scalar) (stop : Option Position)
  /-- A string or number that ends but has no value, such as a number that is too large. -/
  | flawed (start : Option Position) (e : TextError)
  | array (start : Option Position) (items : List Node) (closing : Closing)
  | object (start : Option Position) (members : List (Name × Node)) (closing : Closing)
  | broken (start : Option Position) (b : Break)

/-- A named part of an object, as its node holds it. -/
abbrev Member := Name × Node

/-- What breaks a closing off, if anything does. -/
def Closing.break? : Closing → Option Break
  | broken b => some b
  | _ => none

/-- The error that breaks a closing off, for one who reads (`Break.read`). -/
def Closing.error? (c : Closing) : Option TextError :=
  c.break?.map (·.read)

/-- The error of a name that has no value, for one who reads. -/
def Name.error? (n : Name) : Option TextError :=
  match n.text with
  | .ok _ => none
  | .error e => some e

/-- The place behind the closing bracket of a text; nothing else has one. -/
def Closing.stop? : Closing → Option Position
  | text p => some p
  | _ => none

namespace Node

/-- The place where a node starts; values in memory and copies set aside have none. -/
def start? : Node → Option Position
  | scalar start _ _ | flawed start _ | array start _ _ | object start _ _ | broken start _ => start

/-- What breaks a node off, itself or at the end of its items or members. -/
def break? : Node → Option Break
  | scalar .. | flawed .. => none
  | array _ _ closing => closing.break?
  | object _ _ closing => closing.break?
  | broken _ b => some b

mutual

/-- A value in memory as a node without places, which decoders treat like one that was read. -/
def ofJson : Json → Node
  | .null => .scalar none .null none
  | .bool b => .scalar none (.bool b) none
  | .number n => .scalar none (.number n) none
  | .string s => .scalar none (.string s) none
  | .array items => .array none (ofItems items) .memory
  | .object members => .object none (ofMembers members) .memory

/-- The items of an array in memory as nodes (`ofJson`). -/
def ofItems : List Json → List Node
  | [] => []
  | v :: rest => ofJson v :: ofItems rest

/-- The members of an object in memory as nodes under their names (`ofJson`). -/
def ofMembers : List (String × Json) → List (Name × Node)
  | [] => []
  | (k, v) :: rest => (⟨.ok k, none⟩, ofJson v) :: ofMembers rest

end

mutual

/-- The value of a node; a node without a value stands for null, and of two members of one name the
later one counts (`Json.ofMembers`). -/
def value : Node → Json
  | .scalar _ .null _ => .null
  | .scalar _ (.bool b) _ => .bool b
  | .scalar _ (.number n) _ => .number n
  | .scalar _ (.string s) _ => .string s
  | .array _ items _ => .array (itemValues items)
  | .object _ members _ => Json.ofMembers (memberValues members)
  | .flawed .. | .broken .. => .null

/-- The values of the items of an array, in order (`value`). -/
def itemValues : List Node → List Json
  | [] => []
  | n :: rest => value n :: itemValues rest

/-- The values of the members of an object whose names have a value, in the order of the text. -/
def memberValues : List (Name × Node) → List (String × Json)
  | [] => []
  | (⟨.ok k, _⟩, n) :: rest => (k, value n) :: memberValues rest
  | (⟨.error _, _⟩, _) :: rest => memberValues rest

end

mutual

/-- A copy of a node that is set aside: without its places, and with containers that end as
`Closing.setAside`. -/
def detached : Node → Node
  | .scalar _ value _ => .scalar none value none
  | .array _ items _ => .array none (detachedItems items) .setAside
  | .object _ members _ => .object none (detachedMembers members) .setAside
  | .flawed _ e => .flawed none e
  | .broken _ b => .broken none b

/-- The items of an array, set aside (`detached`). -/
def detachedItems : List Node → List Node
  | [] => []
  | n :: rest => detached n :: detachedItems rest

/-- The members of an object, set aside under their names (`detached`). -/
def detachedMembers : List (Name × Node) → List (Name × Node)
  | [] => []
  | (k, n) :: rest => (⟨k.text, none⟩, detached n) :: detachedMembers rest

end

/-- The error of a container that stands too deep; it is reported behind the opening bracket. -/
def tooDeep (start : Option Position) : TextError :=
  let p := start.getD ⟨1, 0⟩
  ⟨.tooDeep, ⟨p.line, p.column + 1⟩⟩

mutual

/-- The first error of a node in the order of the text, where `limit` containers may stand inside
each other. A value in memory has no errors, however deep it is. -/
def firstError (limit : Nat) : Node → Option TextError
  | .scalar .. | .array _ _ .memory | .object _ _ .memory => none
  | .array start items closing =>
    match limit with
    | 0 => some (tooDeep start)
    | limit + 1 => (firstItemError limit items).or closing.error?
  | .object start members closing =>
    match limit with
    | 0 => some (tooDeep start)
    | limit + 1 => (firstMemberError limit members).or closing.error?
  | .flawed _ e => some e
  | .broken _ b => some b.read

/-- The first error among the items of an array, in their order (`firstError`). -/
def firstItemError (limit : Nat) : List Node → Option TextError
  | [] => none
  | n :: rest => (firstError limit n).or (firstItemError limit rest)

/-- The first error among the members of an object, the name of each before its value
(`firstError`). -/
def firstMemberError (limit : Nat) : List (Name × Node) → Option TextError
  | [] => none
  | (k, n) :: rest => (k.error?.or (firstError limit n)).or (firstMemberError limit rest)

end

mutual

/-- The first error of a node whose value nobody asks for: only what breaks the text off counts, and
the depth has no limit. -/
def skipError : Node → Option TextError
  | .scalar .. | .flawed .. => none
  | .array _ items closing => (skipItemError items).or (closing.break?.map (·.skipped))
  | .object _ members closing => (skipMemberError members).or (closing.break?.map (·.skipped))
  | .broken _ b => some b.skipped

/-- The first error among the items of a skipped array (`skipError`). -/
def skipItemError : List Node → Option TextError
  | [] => none
  | n :: rest => (skipError n).or (skipItemError rest)

/-- The first error among the values of a skipped object; its names are not read (`skipError`). -/
def skipMemberError : List (Name × Node) → Option TextError
  | [] => none
  | (_, n) :: rest => (skipError n).or (skipMemberError rest)

end

end Node

end WorkflowTemplates.Json
