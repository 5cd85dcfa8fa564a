import WorkflowTemplates.Source.LiteralReader

/-!
# Type hints

A type hint names the type of a parameter. The names of the basic types and of references map to
types, `Literal[...]` is a closed set of texts, and a hint that only wraps another one stands for
it: quotes, `Optional`, `Annotated`, and unions whose other members are the type of no value. Any
other hint is a type of its own, under the text of the hint.
-/

namespace WorkflowTemplates.TypeHint

open Text (trim trimEnd)

/-- Why a type hint is refused: only a closed set of texts can be, for a member that is no literal
or no scalar. -/
inductive Fault
  | literal (fault : Literal.ReadFault)
  | choice (written : String)
  deriving DecidableEq

/-- The wording of a fault, behind the name of the parameter that `SignatureFault.message` puts
before it. -/
def Fault.message : Fault → String
  | literal fault => fault.message
  | choice written => "unsupported Literal value " ++ written

/-- The text between a pair of the given quotes around it, trimmed, if it has them. -/
def unquoteBy? (quote : Char) : List Char → Option (List Char)
  | c :: s =>
    if c = quote ∧ s.getLast? = some quote then some (trim s.dropLast) else none
  | [] => none

/-- The text `s` without a pair of equal quotes around it, of either kind, as a hint may be given in
quotes. -/
def unquote (s : List Char) : List Char :=
  ((unquoteBy? '"' s).or (unquoteBy? '\'' s)).getD s

/-- The last segment of a dotted name, trimmed; the name alone has one. -/
def lastSegment (name : List Char) : List Char :=
  trim (name.reverse.takeWhile (· != '.')).reverse

/-- What stands between the brackets of `hint`, trimmed, if it is a generic type whose last segment
is `name`. -/
def generic? (name : String) (hint : List Char) : Option (List Char) :=
  match hint.dropWhile (· != '[') with
  | [] => none
  | _ :: inside =>
    let inside := trimEnd inside
    if lastSegment (hint.takeWhile (· != '[')) = name.toList ∧ inside.getLast? = some ']' then
      some (trim inside.dropLast)
    else none

/-- Whether a hint is a name of the type of no value. -/
def isNone (hint : List Char) : Bool :=
  hint == "None".toList || hint == "NoneType".toList

/-- The only member of a union beside the type of no value (`isNone`), trimmed; nothing if there are
more or none. -/
def onlyMember? (members : List (List Char)) : Option (List Char) :=
  match (members.map trim).filter (!isNone ·) with
  | [only] => some only
  | _ => none

/-- The hint that `hint` only wraps: inside `Optional`, in front in `Annotated`, or the only member
of a union in either writing. -/
def wrapped? (hint : List Char) : Option (List Char) :=
  (generic? "Optional" hint).or <|
  ((generic? "Annotated" hint).bind fun inside => (Source.splitTop ',' inside).head?).or <|
  ((generic? "Union" hint).bind fun inside => onlyMember? (Source.splitTop ',' inside)).or <|
  match Source.splitTop '|' hint with
  | _ :: _ :: _ => onlyMember? (Source.splitTop '|' hint)
  | _ => none

/-- The texts of the members of a closed set, in their order, or the fault of the first member that
is no scalar. -/
def choices : List Literal → Except Fault (List String)
  | [] => .ok []
  | l :: rest =>
    match l.text? with
    | none => .error (.choice l.display)
    | some text => (choices rest).map (text :: ·)

/-- The closed set of literals that stands between brackets, read as a list; its members may be
scalars of any kind. -/
def readChoices (inside : List Char) : Except Fault TypeTag :=
  match Literal.read ('[' :: inside ++ [']']) with
  | .error fault => .error (.literal fault)
  | .ok (.list items) => (choices items).map .choice
  | .ok l => .error (.choice l.display)

/-- The type that a name stands for, by its last segment; any other name is a type of its own, under
the whole text. -/
def ofName (hint : List Char) : TypeTag :=
  match String.ofList (lastSegment hint) with
  | "str" => .string
  | "int" => .integer
  | "float" => .float
  | "bool" => .boolean
  | "complex" => .complex
  | "ValueFrom" => .reference
  | _ => .custom (String.ofList hint)

/-- The type of a hint that wraps no other one: a closed set, or a name. -/
def readUnwrapped (hint : List Char) : Except Fault TypeTag :=
  match generic? "Literal" hint with
  | some inside => readChoices inside
  | none => .ok (ofName hint)

/-- The type of a hint, of which at most so many wrappers are taken off (`wrapped?`); what is left
then counts as a name. -/
def readWithin : Nat → List Char → Except Fault TypeTag
  | 0, text => readUnwrapped (unquote (trim text))
  | bound + 1, text =>
    let hint := unquote (trim text)
    match wrapped? hint with
    | some inner => readWithin bound inner
    | none => readUnwrapped hint

/-- The type of the hint `text`. A hint is longer than the one it wraps, so its length bounds the
wrappers. -/
def read (text : List Char) : Except Fault TypeTag :=
  readWithin text.length text

end WorkflowTemplates.TypeHint
