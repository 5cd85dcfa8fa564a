import WorkflowTemplates.Schema.Template
import WorkflowTemplates.Step.Token
import WorkflowTemplates.Template.Compiled

/-!
# Task steps

A task step is a named call of a template. It may pass arguments, and loop over the values of an
expression, over a list of arguments, or over numbers. Its values are encoded by the declared types
of the compiled template, which must be the one that the step names.
-/

namespace WorkflowTemplates

/-- What a step loops over, apart from numbers. -/
inductive Batch
  /-- The list that an expression of the engine gives. -/
  | param (expression : String)
  | items (list : List Arguments)

/-- A named call of a template: its arguments, at most one loop over items and one over numbers, and
a condition. -/
structure TaskStep where
  name : String
  template : String
  arguments : Option Arguments := none
  batch : Option Batch := none
  sequence : Option Sequence := none
  condition : Option String := none

/-- For every name that one of the `items` uses, once and in the order of first use, the parameter
that passes the item's field of that name. -/
def itemParameters (items : List Arguments) : List Parameter :=
  (items.flatMap Arguments.names).eraseDups.map fun name =>
    { name, value := some (Token.itemField name) }

/-- The members of an item of a loop, in the order of its entries, or the first error. Values are
encoded by the `declared` types; they are texts and never references, which an item cannot hold. -/
def itemMembers (declared : String → Option TypeTag) :
    List (String × Value) → Except EncodingError (List (String × Json))
  | [] => .ok []
  | (name, value) :: rest => do
    match ← encode name value (declared name) with
    | .reference _ => .error ⟨name, .referenceAsItem⟩
    | .literal text =>
      let members ← itemMembers declared rest
      .ok ((name, .string text) :: members)

/-- The objects of the items of a loop (`itemMembers`), in their order, or the first error. -/
def encodeItems (declared : String → Option TypeTag) :
    List Arguments → Except EncodingError (List Json)
  | [] => .ok []
  | item :: rest => do
    let members ← itemMembers declared item.entries
    let items ← encodeItems declared rest
    .ok (Json.ofMembers members :: items)

namespace TaskStep

/-- The parameters that the step `s` passes: those of its call, or else those of its items
(`itemParameters`), or else none. -/
def parameters (s : TaskStep) (c : CompiledTemplate) : Except EncodingError (List Parameter) :=
  match s.arguments, s.batch with
  | some a, _ => c.resolveArguments a
  | none, some (.items items) => .ok (itemParameters items)
  | none, _ => .ok []

/-- The items that the step `s` loops over, encoded by the types that the template declares; none if
it loops over no items. -/
def withItems (s : TaskStep) (c : CompiledTemplate) :
    Except EncodingError (Option (List Json)) :=
  match s.batch with
  | some (.items items) => (encodeItems c.declaredType? items).map some
  | _ => .ok none

/-- The expression that the step `s` loops over, if it loops over one. -/
def withParam (s : TaskStep) : Option String :=
  match s.batch with
  | some (.param expression) => some expression
  | _ => none

/-- The workflow step of `s` against a template whose name was checked, or the first error: that of
the parameters, then that of the items. No parameters are no arguments. -/
def encodeAgainst (s : TaskStep) (c : CompiledTemplate) : Except EncodingError WorkflowStep := do
  let parameters ← s.parameters c
  let items ← s.withItems c
  .ok {
    name := s.name
    template := s.template
    arguments := if parameters.isEmpty then none else some parameters
    withItems := items
    withParam := s.withParam
    withSequence := s.sequence
    condition := s.condition }

/-- The workflow step of `s` for the compiled template `c`, which must have the name that the step
calls. -/
def toWorkflowStep (s : TaskStep) (c : CompiledTemplate) : Except Error WorkflowStep :=
  if c.name ≠ s.template then .error (.templateMismatch s.name s.template c.name)
  else (s.encodeAgainst c).mapError .encoding

end TaskStep

end WorkflowTemplates
