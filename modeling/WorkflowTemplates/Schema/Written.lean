import WorkflowTemplates.Document.Basic
import WorkflowTemplates.Schema.Template

/-!
# Written templates and steps

Templates and steps as documents. Fields stand in a fixed order, and a field that has no value is
left out. A template has its manifest under the key of its kind, beside its name.
-/

namespace WorkflowTemplates

open Document (field? text? texts?)

/-- A `ConfigMapKeySelector` as a document, which is read back by its `recordType`. -/
def ConfigMapKeySelector.toDocument (s : ConfigMapKeySelector) : Document :=
  .record (("key", .string s.key) :: text? "name" s.name
    ++ field? "optional" (s.optional.map .bool))

/-- A `ValueFrom` as a document, with the sources that are there. -/
def ValueFrom.toDocument (v : ValueFrom) : Document :=
  .record (field? "configMapKeyRef" (v.configMapKeyRef.map (·.toDocument))
    ++ text? "default" v.default ++ text? "event" v.event ++ text? "expression" v.expression
    ++ text? "jqFilter" v.jqFilter ++ text? "jsonPath" v.jsonPath ++ text? "parameter" v.parameter
    ++ text? "path" v.path)

/-- A `Parameter` as a document: its name, and the other fields that have a value. -/
def Parameter.toDocument (p : Parameter) : Document :=
  .record (("name", .string p.name) :: text? "default" p.default ++ texts? "enum" p.allowed
    ++ text? "value" p.value ++ field? "valueFrom" (p.valueFrom.map (·.toDocument))
    ++ text? "description" p.description)

/-- A record of `parameters`, empty if there are none. -/
def parametersDocument (parameters : List Parameter) : Document :=
  .record (if parameters.isEmpty then []
    else [("parameters", .list (parameters.map (·.toDocument)))])

/-- An `EnvVar` as a document, without a value if it has none. -/
def EnvVar.toDocument (e : EnvVar) : Document :=
  .record (("name", .string e.name) :: text? "value" e.value)

/-- The field of the variables of a container, left out if there are none. -/
def env? (env : List EnvVar) : List (String × Document) :=
  if env.isEmpty then [] else [("env", .list (env.map (·.toDocument)))]

/-- A `Container` as a document of the fields that have a value. -/
def Container.toDocument (c : Container) : Document :=
  .record (text? "name" c.name ++ text? "image" c.image ++ texts? "command" c.command
    ++ texts? "args" c.args ++ text? "workingDir" c.workingDir ++ env? c.env)

/-- A `Script` as a document: its image and its source, and the other fields that have a value. -/
def Script.toDocument (s : Script) : Document :=
  .record (("image", .string s.image) :: texts? "command" s.command
    ++ ("source", .string s.source) :: text? "workingDir" s.workingDir ++ env? s.env)

/-- A `Resource` as a document: its action, and the other fields that have a value. -/
def Resource.toDocument (r : Resource) : Document :=
  .record (("action", .string r.action.name) :: text? "manifest" r.manifest
    ++ texts? "flags" r.flags
    ++ field? "mergeStrategy" (r.mergeStrategy.map fun m => .string m.name)
    ++ text? "failureCondition" r.failureCondition ++ text? "successCondition" r.successCondition
    ++ field? "setOwnerReference" (r.setOwnerReference.map .bool))

/-- The content of a manifest as a document, without the key of its kind. -/
def Manifest.body : Manifest → Document
  | container c => c.toDocument
  | script s => s.toDocument
  | resource r => r.toDocument

/-- A manifest as a document of one field, the content (`Manifest.body`) under the key of its kind.
-/
def Manifest.toDocument (m : Manifest) : Document :=
  .record [(m.key, m.body)]

/-- A `Template` as a document: its name, its inputs if there are any, and the content of its
manifest under the key of the kind, beside the name and not inside a field of its own. -/
def Template.toDocument (t : Template) : Document :=
  .record (("name", .string t.name)
    :: (if t.inputs.isEmpty then [] else [("inputs", parametersDocument t.inputs)])
    ++ [(t.manifest.key, t.manifest.body)])

/-- A `Sequence` as a document of the fields that have a value. -/
def Sequence.toDocument (s : Sequence) : Document :=
  .record (field? "count" (s.count.map .ofUInt64) ++ field? "start" (s.start.map .ofInt64)
    ++ field? "end" (s.last.map .ofInt64) ++ text? "format" s.format)

/-- A `WorkflowStep` as a document: its name and its template, and the other fields that have a
value. -/
def WorkflowStep.toDocument (s : WorkflowStep) : Document :=
  .record (("name", .string s.name) :: ("template", .string s.template)
    :: field? "arguments" (s.arguments.map parametersDocument)
    ++ field? "withItems" (s.withItems.map fun items => .list (items.map .ofJson))
    ++ text? "withParam" s.withParam
    ++ field? "withSequence" (s.withSequence.map (·.toDocument))
    ++ text? "when" s.condition)

/-- The `stages` of a workflow as a document: a list of lists, of which each has the steps that run
side by side. -/
def stagesDocument (stages : List (List WorkflowStep)) : Document :=
  .list (stages.map fun stage => .list (stage.map (·.toDocument)))

end WorkflowTemplates
