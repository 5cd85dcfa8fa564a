import WorkflowTemplates.Source.TypeHint
import WorkflowTemplates.Value.Basic

/-!
# Defaults in signatures

A default is a literal, and the literal for no value means that there is no default. A call of
`ValueFrom` is a reference, whose fields are the named arguments; lists and dictionaries are JSON
values.
-/

namespace WorkflowTemplates.Default

open TypeHint (lastSegment)

/-- Why the text of a default is refused: it is no literal, or the literal is no default. -/
inductive Fault
  | literal (fault : Literal.ReadFault)
  | json (fault : LiteralFault)
  | call (name : String)
  | fieldNotScalar (name : String)
  | unknownField (name : String)
  | noSelector (written : String)
  | selectorField (name : String)
  | selectorWithoutKey
  deriving DecidableEq

/-- The wording of a fault, behind the name of the parameter that `SignatureFault.message` puts
before it. -/
def Fault.message : Fault → String
  | literal fault => fault.message
  | json fault => fault.message
  | call name => "unsupported default expression '" ++ name ++ "(...)'"
  | fieldNotScalar name => "ValueFrom." ++ name ++ " must be a scalar"
  | unknownField name => "unknown ValueFrom field '" ++ name ++ "'"
  | noSelector written => "expected ConfigMapKeySelector(...), found " ++ written
  | selectorField name => "invalid ConfigMapKeySelector field '" ++ name ++ "'"
  | selectorWithoutKey => "ConfigMapKeySelector requires 'key'"

/-- Whether `segment` is the last segment of the dotted name `name`, whatever module it is taken
from. -/
def isNamed (segment name : String) : Bool :=
  lastSegment name.toList == segment.toList

/-- The fields of a selector put into `s`, one after the other, and whether the key was among them.
Each field takes literals of its own kind only. -/
def selectorFields : ConfigMapKeySelector → Bool → List (String × Literal) →
    Except Fault (ConfigMapKeySelector × Bool)
  | s, hasKey, [] => .ok (s, hasKey)
  | s, hasKey, (name, value) :: rest =>
    match name, value with
    | "key", .string text => selectorFields { s with key := text } true rest
    | "name", .string text => selectorFields { s with name := some text } hasKey rest
    | "optional", .boolean b => selectorFields { s with optional := some b } hasKey rest
    | name, _ => .error (.selectorField name)

/-- The selector that the literal `l` stands for: a call of `ConfigMapKeySelector` with a key. -/
def selector (l : Literal) : Except Fault ConfigMapKeySelector :=
  match l with
  | .call name fields =>
    if isNamed "ConfigMapKeySelector" name then do
      let (s, hasKey) ← selectorFields { key := "" } false fields
      if hasKey then .ok s else .error .selectorWithoutKey
    else .error (.noSelector l.display)
  | l => .error (.noSelector l.display)

/-- The source `v` with the field `name` set to `text`; the fields of two words have a name in
either spelling. -/
def setField (v : ValueFrom) (name text : String) : Except Fault ValueFrom :=
  match name with
  | "default" => .ok { v with default := some text }
  | "event" => .ok { v with event := some text }
  | "expression" => .ok { v with expression := some text }
  | "jqFilter" | "jq_filter" => .ok { v with jqFilter := some text }
  | "jsonPath" | "json_path" => .ok { v with jsonPath := some text }
  | "parameter" => .ok { v with parameter := some text }
  | "path" => .ok { v with path := some text }
  | name => .error (.unknownField name)

/-- The fields of a source put into `v`, one after the other: a selector, or the text of a scalar.
-/
def sourceFields : ValueFrom → List (String × Literal) → Except Fault ValueFrom
  | v, [] => .ok v
  | v, (name, value) :: rest =>
    if name = "configMapKeyRef" ∨ name = "config_map_key_ref" then do
      let s ← selector value
      sourceFields { v with configMapKeyRef := some s } rest
    else match value.text? with
      | none => .error (.fieldNotScalar name)
      | some text => do
        let v ← setField v name text
        sourceFields v rest

/-- The default that a literal stands for, none for the literal of no value. A call must be one of
`ValueFrom`, and lists and dictionaries must have a JSON value. -/
def ofLiteral : Literal → Except Fault (Option Value)
  | .nothing => .ok none
  | .string s => .ok (some (.string s))
  | .integer i => .ok (some (.integer i))
  | .float x => .ok (some (.float x))
  | .boolean b => .ok (some (.boolean b))
  | .complex z => .ok (some (.complex z))
  | .call name fields =>
    if isNamed "ValueFrom" name then
      (sourceFields {} fields).map fun v => some (.reference v)
    else .error (.call name)
  | l =>
    match l.toJson with
    | .ok v => .ok (some (.json v))
    | .error fault => .error (.json fault)

/-- The default that the `text` behind the equals sign stands for (`ofLiteral`), or why it is
refused. -/
def read (text : List Char) : Except Fault (Option Value) :=
  match Literal.read text with
  | .ok l => ofLiteral l
  | .error fault => .error (.literal fault)

end WorkflowTemplates.Default
