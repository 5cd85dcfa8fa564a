import WorkflowTemplates.Source.LiteralReader
import WorkflowTemplates.Text.Lines

/-!
# Function bodies

A logical line may go on over several lines: inside strings and brackets, and behind a backslash. A
body ends before the first logical line that is indented no deeper than the definition, blank lines
and comments apart. Its statements are the logical lines in column zero, with everything that
belongs to them. A leading string statement is the documentation, and a literal that the last
statement returns is the returned text.
-/

namespace WorkflowTemplates.Source

open Text (isBlank isBlankLine indentWidth trim trimStart)

/-- A line of source, and whether a logical line of Python starts with it. -/
structure Line where
  starts : Bool
  text : List Char
  deriving DecidableEq

/-- Lines with their logical starts, from the state of the scanner and a first start on. The end of
a line starts a logical line if it is code outside brackets (`ScanState.isTop`) and no backslash
stands before it. -/
def markLines : ScanState → Bool → List (List Char) → List Line
  | _, _, [] => []
  | s, starts, text :: rest =>
    let behind := s.run text
    ⟨starts, text⟩
      :: markLines (behind.next '\n') (behind.isTop '\n' && text.getLast? != some '\\') rest

/-- The lines of source with their logical starts (`markLines`), the first of which starts one. -/
def logicalLines (lines : List (List Char)) : List Line :=
  markLines .start true lines

/-- Whether a line is blank or holds only a comment; neither starts a statement, however deep it is
indented. -/
def isBlankOrComment (line : List Char) : Bool :=
  let s := trim line
  s.isEmpty || s.head? == some '#'

/-- Whether a line ends the body of a definition indented by `indent`: it starts a logical line that
is indented at most so deep, and is neither blank nor a comment. -/
def Line.endsBody (indent : Nat) (line : Line) : Bool :=
  line.starts && !isBlankOrComment line.text && decide (indentWidth line.text ≤ indent)

/-- The lines up to the last one that is not blank (`isBlankLine`). -/
def dropBlankEnd (lines : List (List Char)) : List (List Char) :=
  (lines.reverse.dropWhile isBlankLine).reverse

/-- The body among the lines behind a signature that is indented by `indent`: those before the first
that ends it (`Line.endsBody`), without blank lines at the end and without their margin; none if it
has no lines. -/
def body? (indent : Nat) (lines : List (List Char)) : Option (List Char) :=
  let inside := ((logicalLines lines).takeWhile (!·.endsBody indent)).map (·.text)
  match dropBlankEnd inside with
  | [] => none
  | lines => some (Text.dedent lines)

/-- The statements of lines, behind a statement that may be open. A line that starts no statement in
column zero belongs to the open one, except for blank lines and comments between logical lines. -/
def statementsFrom : Option (List Char) → List Line → List (List Char)
  | current, [] => current.toList
  | current, line :: rest =>
    if line.starts && isBlankOrComment line.text then statementsFrom current rest
    else if line.starts && indentWidth line.text == 0 then
      current.toList ++ statementsFrom (some line.text) rest
    else statementsFrom (current.map (· ++ '\n' :: line.text)) rest

/-- The statements of a body: the logical lines in column zero, each with all that belongs to it
(`statementsFrom`). -/
def statements (body : List Char) : List (List Char) :=
  statementsFrom none (logicalLines (body.splitOn '\n'))

/-- The text of a documentation string, cleaned as Python cleans them: its first line trimmed, the
others without their margin, and the whole trimmed. -/
def documentation (text : List Char) : List Char :=
  match Text.lines text with
  | [] => []
  | first :: rest =>
    let first := trim first
    let rest := Text.dedent rest
    trim (if first.isEmpty then rest else first ++ '\n' :: rest)

/-- The documentation that a first statement is: the cleaned text (`documentation`) if it is a
string literal, else nothing. -/
def docstring (statement : List Char) : List Char :=
  match Literal.read statement with
  | .ok (.string text) => documentation text.toList
  | _ => []

/-- The text that a literal stands for when it is returned: lists and dictionaries as they are
written (`Literal.display`), scalars as their texts, and no text for no value and for calls. -/
def returnedText? : Literal → Option String
  | .string text => some text
  | .nothing | .call .. => none
  | .list items => some (Literal.list items).display
  | .dict entries => some (Literal.dict entries).display
  | l => l.text?

/-- The expression that a statement returns, if it is a `return` with one behind it; the word must
end before a blank or a parenthesis. -/
def returnedExpression? (statement : List Char) : Option (List Char) :=
  let word := "return".toList
  if word.isPrefixOf statement then
    match statement.drop word.length with
    | c :: s => if isBlank c || c == '(' then some (trim (c :: s)) else none
    | [] => none
  else none

/-- The text of the literal that a statement returns (`returnedText?`), if it returns one that can
be read. -/
def returned? (statement : List Char) : Option String :=
  match returnedExpression? statement with
  | none => none
  | some expression =>
    match Literal.read expression with
    | .ok l => returnedText? l
    | .error _ => none

end WorkflowTemplates.Source
