import WorkflowTemplates.Source.Default
import WorkflowTemplates.Text.Lines
import WorkflowTemplates.Value.Basic

/-!
# Signatures

A signature is the head of a function definition: from `def` to the colon that stands outside all
brackets behind a first parenthesis. Its parameter list is split at commas; a parameter is a name
with an optional type hint behind a colon and an optional default behind an equals sign. Markers of
positional and named parameters are skipped, and so is the first parameter if it stands for the
object of a method.
-/

namespace WorkflowTemplates

open Source (ScanState)
open Text (trim trimStart isBlankLine)

/-- Why a signature is refused: its outer form, or one of its parameters. -/
inductive SignatureFault
  | unbalanced
  | bodyOnSameLine
  | missingParameters
  | invalidName (name : String)
  | unbalancedParameters
  | variadic (parameter : String)
  | duplicate (name : String)
  | typeHint (name : String) (fault : TypeHint.Fault)
  | default (name : String) (fault : Default.Fault)
  deriving DecidableEq

/-- The wording of a fault, with the name of the parameter that it is about. -/
def SignatureFault.message : SignatureFault → String
  | unbalanced => "unbalanced function signature"
  | bodyOnSameLine => "function body must start on the line after the signature"
  | missingParameters => "missing parameter list"
  | invalidName name => "invalid function name '" ++ name ++ "'"
  | unbalancedParameters => "unbalanced parameter list"
  | variadic parameter => "variadic parameter '" ++ parameter ++ "' is not supported"
  | duplicate name => "duplicate parameter '" ++ name ++ "'"
  | typeHint name fault => "parameter '" ++ name ++ "': " ++ fault.message
  | default name fault => "default of '" ++ name ++ "': " ++ fault.message

/-- The name of a function and the declarations of its parameters, which stand in the order of the
parameter list. -/
structure Signature where
  name : String
  parameters : List Declaration
  deriving DecidableEq

namespace Signature

/-- The text before and behind the colon that ends the head of a definition: the first outside all
brackets behind a parenthesis. The flag tells that a parenthesis came before. -/
def breakHead : Bool → ScanState → List Char → Option (List Char × List Char)
  | _, _, [] => none
  | seen, s, c :: text =>
    let seen := seen || (s.isCode c && c == '(')
    if seen && s.isTop c && c == ':' then some ([], text)
    else (breakHead seen (s.next c) text).map fun (head, behind) => (c :: head, behind)

/-- The text before and behind the equals sign of a default: the first one outside brackets that is
no part of a comparison. The optional character is the one before the text. -/
def breakDefault : Option Char → ScanState → List Char → Option (List Char × List Char)
  | _, _, [] => none
  | before, s, c :: text =>
    let compares := before.any ['=', '!', '<', '>'].contains || text.head? == some '='
    if s.isTop c && c == '=' && !compares then some ([], text)
    else (breakDefault (some c) (s.next c) text).map fun (head, behind) => (c :: head, behind)

/-- The text up to the first `c` of it, and the text behind that; nothing if `c` does not occur. -/
def cutAt (c : Char) (s : List Char) : Option (List Char × List Char) :=
  match s.dropWhile (· != c) with
  | [] => none
  | _ :: behind => some (s.takeWhile (· != c), behind)

/-- The name, the type hint and the default of a parameter, as texts of the source. -/
structure Part where
  name : List Char
  hint : Option (List Char)
  default : Option (List Char)

/-- The parts of a trimmed `parameter`: the default is cut off first (`breakDefault`), then the hint
at the first colon of what is left; all parts are trimmed. -/
def Part.ofText (parameter : List Char) : Part :=
  let (head, default) := match breakDefault none .start parameter with
    | some (head, behind) => (trim head, some (trim behind))
    | none => (parameter, none)
  match cutAt ':' head with
  | some (name, hint) => ⟨trim name, some (trim hint), default⟩
  | none => ⟨head, none, default⟩

/-- The declared type of a parameter (`TypeHint.read`); without a hint it is a string. -/
def Part.type (p : Part) : Except SignatureFault TypeTag :=
  match p.hint with
  | none => .ok .string
  | some hint => (TypeHint.read hint).mapError (.typeHint (String.ofList p.name))

/-- The default of a parameter (`Default.read`), if it has one. -/
def Part.value (p : Part) : Except SignatureFault (Option Value) :=
  match p.default with
  | none => .ok none
  | some text => (Default.read text).mapError (.default (String.ofList p.name))

/-- The declaration of a parameter, or the fault of its type, or else of its default. -/
def Part.declaration (p : Part) : Except SignatureFault Declaration := do
  let type ← p.type
  let default ← p.value
  .ok { name := String.ofList p.name, type, default }

/-- Whether a trimmed piece of a parameter list declares nothing: it is empty, or the marker of
named or positional parameters. -/
def isMarker (piece : List Char) : Bool :=
  piece.isEmpty || piece == ['*'] || piece == ['/']

/-- Whether `name` is one under which a method has its object or its class. -/
def isReceiver (name : List Char) : Bool :=
  name == "self".toList || name == "cls".toList

/-- The declarations of the pieces of a parameter list, after parameters of the names `seen`, or the
first fault. The flag tells that no piece came before: the first one may stand for the object of a
method and is then skipped. -/
def declarations : Bool → List String → List (List Char) →
    Except SignatureFault (List Declaration)
  | _, _, [] => .ok []
  | first, seen, piece :: rest =>
    let parameter := trim piece
    if isMarker parameter then declarations false seen rest
    else if parameter.head? = some '*' then .error (.variadic (String.ofList parameter))
    else
      let part := Part.ofText parameter
      let name := String.ofList part.name
      if first && isReceiver part.name then declarations false seen rest
      else if name ∈ seen then .error (.duplicate name)
      else do
        let d ← part.declaration
        let ds ← declarations false (name :: seen) rest
        .ok (d :: ds)

/-- The text `s` without `word` in front of it, as often as it is there; the number bounds how
often. -/
def dropWord (word : List Char) : Nat → List Char → List Char
  | 0, s => s
  | bound + 1, s => if word.isPrefixOf s then dropWord word bound (s.drop word.length) else s

/-- The text of a head behind `def`, and behind `async` before it. -/
def behindDef (head : List Char) : List Char :=
  let s := trimStart (dropWord "async".toList head.length (trimStart head))
  trimStart (s.drop "def".toList.length)

/-- Whether a text is the name of a function: at least one character, and word characters only. -/
def isFunctionName (name : List Char) : Bool :=
  !name.isEmpty && name.all Text.isWordChar

/-- The signature of a `head` that starts with `def`: its name stands before the first parenthesis,
and the parameter list goes up to the parenthesis that closes it. -/
def ofHead (head : List Char) : Except SignatureFault Signature :=
  match cutAt '(' (behindDef head) with
  | none => .error .missingParameters
  | some (before, behind) =>
    let name := trim before
    if !isFunctionName name then .error (.invalidName (String.ofList name))
    else
      match Source.breakAt (fun depth c => depth == 0 && c == ')') .start behind with
      | none => .error .unbalancedParameters
      | some (parameters, _) => do
        let parameters ← declarations true [] (Source.splitTop ',' parameters)
        .ok { name := String.ofList name, parameters }

end Signature

end WorkflowTemplates
