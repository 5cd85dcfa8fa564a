import WorkflowTemplates.Json.Basic
import WorkflowTemplates.Schema.Manifest
import WorkflowTemplates.Schema.Parameter
import WorkflowTemplates.Text.Blank

/-!
# Templates

A template is a named unit of work: its input parameters and its manifest. The engine accepts it
only if its name is not blank and every parameter has a name of its own and not both a default and
an indirect source (`Template.Valid`). `Template.validate` reports the first violation, parameter by
parameter.

A step of a workflow (`WorkflowStep`) invokes a template by its name, once or in a loop over items
or over a sequence of numbers.
-/

namespace WorkflowTemplates

/-- A named unit of work: input parameters and a manifest. `Template.Valid` says which of them the
engine accepts. -/
structure Template where
  name : String
  inputs : List Parameter := []
  manifest : Manifest
  deriving DecidableEq

/-- Why the engine rejects a template, for its name or for one of its parameters. -/
inductive TemplateError
  | emptyName
  | duplicateParameter (name : String)
  | conflictingSource (name : String)
  | emptyParameterName
  deriving DecidableEq

/-- The wording of a rejection, with the name of the parameter that it is about. -/
def TemplateError.message : TemplateError → String
  | emptyName => "Template name must not be empty"
  | duplicateParameter name => "Duplicate parameter name: '" ++ name ++ "'"
  | conflictingSource name =>
    "Parameter '" ++ name ++ "' sets both a default and a valueFrom reference"
  | emptyParameterName => "Parameter name must not be empty"

namespace Template

/-- The first input parameter called `name`; in a valid template it is the only one. -/
def parameter? (t : Template) (name : String) : Option Parameter :=
  t.inputs.find? (·.name = name)

/-- Checks parameters one by one, after parameters of the names `seen`: the name must not be empty
and not among `seen`, and there must not be both a default and a source. The first violation of the
first parameter with one is the error. -/
def validateParameters (seen : List String) : List Parameter → Except TemplateError Unit
  | [] => .ok ()
  | p :: rest =>
    if p.name = "" then .error .emptyParameterName
    else if p.name ∈ seen then .error (.duplicateParameter p.name)
    else if p.default.isSome && p.valueFrom.isSome then .error (.conflictingSource p.name)
    else validateParameters (p.name :: seen) rest

/-- Checks the template `t` as the engine does and gives the first reason for which it is rejected:
its name must not be blank, and then the inputs are checked (`validateParameters`). -/
def validate (t : Template) : Except TemplateError Unit :=
  if Text.isBlankLine t.name.toList then .error .emptyName else validateParameters [] t.inputs

/-- What the engine demands of the template `t`; `validate` succeeds exactly on these. -/
structure Valid (t : Template) : Prop where
  name_not_blank : Text.isBlankLine t.name.toList = false
  names_not_empty : ∀ p ∈ t.inputs, p.name ≠ ""
  names_distinct : (t.inputs.map (·.name)).Nodup
  one_source : ∀ p ∈ t.inputs, p.default = none ∨ p.valueFrom = none

end Template

/-! ## Steps that invoke templates -/

/-- A loop over numbers: `count` of them, or those up to `last`, from `start` on. -/
structure Sequence where
  count : Option UInt64 := none
  start : Option Int64 := none
  last : Option Int64 := none
  /-- The pattern by which the engine writes a number as an item. -/
  format : Option String := none
  deriving DecidableEq

/-- The loop over `count` numbers, from zero or from a start given later. -/
def Sequence.ofCount (count : UInt64) : Sequence :=
  { count := some count }

/-- The loop over the numbers from `start` to `last`, both included. -/
def Sequence.ofRange (start last : Int64) : Sequence :=
  { start := some start, last := some last }

/-- One invocation of a template: its arguments, at most one kind of loop, and a condition. -/
structure WorkflowStep where
  name : String
  template : String
  arguments : Option (List Parameter) := none
  /-- The items of a loop, one after the other. -/
  withItems : Option (List Json) := none
  /-- An expression by which the engine finds the items of a loop. -/
  withParam : Option String := none
  withSequence : Option Sequence := none
  /-- The condition under which the step runs, written under the key `when`. -/
  condition : Option String := none
  deriving DecidableEq

end WorkflowTemplates
