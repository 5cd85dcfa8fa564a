import WorkflowTemplates.Source.Body
import WorkflowTemplates.Source.Signature

/-!
# Script functions

A script template may be given as the source of a Python function: the signature declares the
parameters, and the documentation, or else the returned text, is the script. Only the source is
read; nothing is run.
-/

namespace WorkflowTemplates

open Text (trimStart indentWidth)

/-- What the source of a Python function says about the template of its script. -/
structure Function where
  name : String
  parameters : List Declaration
  /-- The leading string statement, cleaned (`Source.docstring`); empty if there is none. -/
  docstring : String
  /-- The body without its margin (`Source.body?`). -/
  body : String
  /-- The text of the literal that the last statement returns (`Source.returned?`). -/
  returnValue : Option String
  deriving DecidableEq

/-- Why the source of a function is refused: nothing is defined in it, or its head or its body is at
fault. -/
inductive FunctionFault
  | noDefinition
  | signature (fault : SignatureFault)
  | emptyBody
  deriving DecidableEq

/-- The wording of a fault, without the line that `FunctionError.message` adds. -/
def FunctionFault.message : FunctionFault → String
  | noDefinition => "no function definition found"
  | signature fault => fault.message
  | emptyBody => "function body is empty"

/-- A fault and the line, counted from one, on which it was noticed. -/
structure FunctionError where
  line : Nat
  fault : FunctionFault
  deriving DecidableEq

/-- The wording of an error, with the line before it. -/
def FunctionError.message (e : FunctionError) : String :=
  "Introspection error at line " ++ String.ofList (Decimal.natural e.line) ++ ": "
    ++ e.fault.message

namespace Function

/-- Whether a function definition starts on a line, in the form `def` or `async def`, however deep
it is indented. -/
def isDefinition (line : List Char) : Bool :=
  let s := trimStart line
  "def ".toList.isPrefixOf s || "async def ".toList.isPrefixOf s

/-- The number of lines before the first definition (`isDefinition`), its first line, and the lines
behind that. -/
def findDefinition? : List (List Char) → Option (Nat × List Char × List (List Char))
  | [] => none
  | line :: rest =>
    if isDefinition line then some (0, line, rest)
    else (findDefinition? rest).map fun (n, line, rest) => (n + 1, line, rest)

/-- The function that the text of a `head` and the `lines` from its first one on define; the
definition is on line `line` and indented by `indent`. The body starts on the line behind the head.
-/
def ofParts (line indent : Nat) (head : List Char) (lines : List (List Char)) :
    Except FunctionError Function :=
  match Signature.ofHead head with
  | .error fault => .error ⟨line, .signature fault⟩
  | .ok signature =>
    let offset := Text.countBreaks head
    match Source.body? indent (lines.drop (offset + 1)) with
    | none => .error ⟨line + offset + 1, .emptyBody⟩
    | some body =>
      let statements := Source.statements body
      .ok {
        name := signature.name
        parameters := signature.parameters
        docstring := String.ofList ((statements.head?.map Source.docstring).getD [])
        body := String.ofList body
        returnValue := statements.getLast?.bind Source.returned? }

/-- The function that the lines of a source define: the first definition among them, whose head ends
where `Signature.breakHead` says. Behind the head only a comment may stand on its last line. -/
def ofLines (lines : List (List Char)) : Except FunctionError Function :=
  match findDefinition? lines with
  | none => .error ⟨1, .noDefinition⟩
  | some (before, first, rest) =>
    let line := before + 1
    match Signature.breakHead false .start (Text.joinLines (first :: rest)) with
    | none => .error ⟨line, .signature .unbalanced⟩
    | some (head, behind) =>
      if Source.isBlankOrComment (Text.firstLine behind) then
        ofParts line (indentWidth first) head (first :: rest)
      else .error ⟨line + Text.countBreaks head, .signature .bodyOnSameLine⟩

/-- The function that `source` defines, line by line (`ofLines`), or the first error on the way. -/
def read (source : String) : Except FunctionError Function :=
  ofLines (Text.lines source.toList)

/-- The declared parameter called `name`, if there is one. -/
def parameter? (f : Function) (name : String) : Option Declaration :=
  f.parameters.find? (·.name = name)

/-- The script that the function `f` stands for: its documentation, else the returned text, else
nothing. -/
def scriptText (f : Function) : String :=
  if f.docstring = "" then f.returnValue.getD "" else f.docstring

end Function

end WorkflowTemplates
