import WorkflowTemplates.Settings.Toml.Moment
import WorkflowTemplates.Settings.Toml.Number
import WorkflowTemplates.Settings.Toml.Table
import WorkflowTemplates.Settings.Toml.Text

/-!
# Reading TOML

A document is read line by line, and a value by recursion on a bound for the characters that are
left. `read` gives the settings of a document, or nothing if the text is no TOML document, for
whatever reason.
-/

namespace WorkflowTemplates.Toml

/-- How many arrays and inline tables may stand inside each other, and how many parts a key may
have. -/
def maxDepth : Nat := 79

/-- The text `s` behind the spaces and tabs at its front. -/
def skipSpace (s : List Char) : List Char :=
  s.dropWhile isSpace

/-- The text behind a comment, if one starts here; none if the comment holds a control character,
which TOML forbids. -/
def skipComment? : List Char → Option (List Char)
  | '#' :: s =>
    let rest := s.dropWhile isPlain
    match rest with
    | [] | '\n' :: _ | '\r' :: '\n' :: _ => some rest
    | _ => none
  | s => some s

/-- The text behind the end of a line, a line feed or a carriage return with a line feed. -/
def behindBreak? : List Char → Option (List Char)
  | '\n' :: s => some s
  | '\r' :: '\n' :: s => some s
  | _ => none

/-- The text behind the end of the line, before which only blanks and a comment may stand; the end
of the text will do as well. -/
def endLine? (s : List Char) : Option (List Char) :=
  (skipComment? (skipSpace s)).bind fun s => if s.isEmpty then some [] else behindBreak? s

/-- The text behind blanks, comments and ends of lines. The first argument bounds the recursion; the
length of the text is enough. -/
def skipLines? : Nat → List Char → Option (List Char)
  | 0, s => some s
  | bound + 1, s =>
    match skipSpace s with
    | [] => some []
    | c :: t =>
      if c = '#' ∨ c = '\n' ∨ c = '\r' then (endLine? (c :: t)).bind (skipLines? bound)
      else some (c :: t)

/-! ## Keys -/

/-- Whether `c` may stand in a bare key of TOML. -/
def isKeyChar (c : Char) : Bool :=
  Text.isDigit c || Text.isAsciiLetter c || c == '_' || c == '-'

/-- A part of a key at the front of a text, quoted or bare, and what follows it. -/
def readKeyPart? : List Char → Option (String × List Char)
  | [] => none
  | c :: s =>
    if c = '"' ∨ c = '\'' then readShortText c s
    else
      let name := (c :: s).takeWhile isKeyChar
      if name.isEmpty then none
      else some (String.ofList name, (c :: s).dropWhile isKeyChar)

/-- The parts of a key between points, with the blanks around them, and what follows. The first
argument bounds the number of parts. -/
def readKeyParts? : Nat → List Char → Option (List String × List Char)
  | 0, _ => none
  | bound + 1, s => do
    let (part, rest) ← readKeyPart? (skipSpace s)
    match skipSpace rest with
    | '.' :: t =>
      let (parts, rest) ← readKeyParts? bound t
      return (part :: parts, rest)
    | rest => return ([part], rest)

/-- A key at the front of a text: the parts before the last one and the last one, and what follows.
It has at most `maxDepth` parts. -/
def readKey? (s : List Char) : Option ((List String × String) × List Char) := do
  let (parts, rest) ← readKeyParts? maxDepth s
  return ((parts.dropLast, parts.getLastD ""), rest)

/-! ## Values -/

/-- Whether `c` may stand in a number or a truth value. -/
def isRunChar (c : Char) : Bool :=
  isKeyChar c || c == '+' || c == '.'

/-- A value that holds no values: a text between quotes, a moment, or a run of characters
(`readWord?`). -/
def readSimple? (s : List Char) : Option (Datum × List Char) :=
  match s with
  | [] => none
  | c :: t =>
    if c = '"' ∨ c = '\'' then (readText c t).map fun (text, rest) => (.setting (.text text), rest)
    else if startsMoment s then
      (readMoment? s).map fun (text, rest) => (.moment (String.ofList text), rest)
    else (readWord? (s.takeWhile isRunChar)).map fun v => (.setting v, s.dropWhile isRunChar)

mutual

/-- The value at the front of a text, inside `depth` arrays and inline tables. The first argument
bounds the recursion; three times the length of the text is enough. -/
def readValue? : Nat → Nat → List Char → Option (Datum × List Char)
  | 0, _, _ => none
  | bound + 1, depth, s =>
    match s with
    | '[' :: t =>
      if depth < maxDepth then
        (readItems? bound (depth + 1) t).map fun (items, rest) => (.ofItems items, rest)
      else none
    | '\x7b' :: t =>
      if depth < maxDepth then do
        let (entries, rest) ← readMembers? bound (depth + 1) true t
        let table ← inline [] entries
        return (.ofSetting? table.toSetting?, rest)
      else none
    | s => readSimple? s

/-- The items of an array up to its bracket, between which lines may end, with a comma behind the
last one or not. -/
def readItems? : Nat → Nat → List Char → Option (List Datum × List Char)
  | 0, _, _ => none
  | bound + 1, depth, s => do
    match ← skipLines? bound s with
    | ']' :: rest => return ([], rest)
    | s =>
      let (item, rest) ← readValue? bound depth s
      match ← skipLines? bound rest with
      | ']' :: rest => return ([item], rest)
      | ',' :: rest =>
        let (items, rest) ← readItems? bound depth rest
        return (item :: items, rest)
      | _ => none

/-- The entries of an inline table up to its brace, which may stand before the first entry and
behind every one. The flag tells that no entry came before. -/
def readMembers? : Nat → Nat → Bool → List Char →
    Option (List (List String × String × Datum) × List Char)
  | 0, _, _, _ => none
  | bound + 1, depth, first, s =>
    match first, skipSpace s with
    | true, '\x7d' :: rest => some ([], rest)
    | _, s => do
      let ((path, key), rest) ← readKey? s
      let rest ← match rest with
        | '=' :: rest => some rest
        | _ => none
      let (value, rest) ← readValue? bound depth (skipSpace rest)
      match skipSpace rest with
      | '\x7d' :: rest => return ([(path, key, value)], rest)
      | ',' :: rest =>
        let (entries, rest) ← readMembers? bound depth false rest
        return ((path, key, value) :: entries, rest)
      | _ => none

end

/-! ## Lines -/

/-- The header or the entry at the front of a text, up to the end of its line, and what follows. The
bound of a value is enough for the text that is left. -/
def readLine? (s : List Char) : Option (Line × List Char) :=
  match s with
  | '[' :: '[' :: s => do
    let ((path, key), rest) ← readKey? s
    match rest with
    | ']' :: ']' :: rest => (endLine? rest).map (.listHeader path key, ·)
    | _ => none
  | '[' :: s => do
    let ((path, key), rest) ← readKey? s
    match rest with
    | ']' :: rest => (endLine? rest).map (.header path key, ·)
    | _ => none
  | s => do
    let ((path, key), rest) ← readKey? s
    match rest with
    | '=' :: rest =>
      let (value, rest) ← readValue? (3 * rest.length + 3) 0 (skipSpace rest)
      (endLine? rest).map (.entry path key value, ·)
    | _ => none

/-- The headers and entries of a text, one after the other (`readLine?`). The first argument bounds
the recursion; the length of the text is enough. -/
def readLines? : Nat → List Char → Option (List Line)
  | 0, s => if s.isEmpty then some [] else none
  | bound + 1, s =>
    match skipLines? s.length s with
    | none => none
    | some [] => some []
    | some s => do
      let (line, rest) ← readLine? s
      let lines ← readLines? bound rest
      return line :: lines

/-- The text without the byte order mark that may start it. -/
def dropByteOrderMark : List Char → List Char
  | '\ufeff' :: s => s
  | s => s

/-- The settings of the TOML document `s`, under keys in lower case: its lines are read
(`readLines?`), and the tables built from them (`build`). A document that is a moment has none. -/
def read? (s : List Char) : Option (List (String × Setting)) := do
  let s := dropByteOrderMark s
  let lines ← readLines? s.length s
  let table ← build [] [] lines
  match ← table.toSetting? with
  | .table settings => return settings
  | _ => none

end WorkflowTemplates.Toml
