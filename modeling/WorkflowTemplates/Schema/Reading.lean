import WorkflowTemplates.Json.Decode
import WorkflowTemplates.Schema.Template

/-!
# Reading templates and steps

Templates, steps and their parts are read from JSON nodes. A template reads its name and inputs and
sets every other member aside until its end; of those, the first that is keyed by a kind of
manifest is its manifest.
-/

namespace WorkflowTemplates

open Json (Decoder DecodeError Field Node RecordType)

/-- How a `ConfigMapKeySelector` is read: only its key has to be there. -/
def ConfigMapKeySelector.recordType : RecordType ConfigMapKeySelector where
  name := "ConfigMapKeySelector"
  fields := [
    .of "key" .required Node.string fun v r => { r with key := v },
    .text? "name" fun v r => { r with name := v },
    .of "optional" .optional (Node.optional Node.bool) fun v r => { r with optional := v }]
  empty := { key := "" }

/-- How a `ValueFrom` is read: any of its sources may be missing, also all of them. -/
def ValueFrom.recordType : RecordType ValueFrom where
  name := "ValueFrom"
  fields := [
    .of "configMapKeyRef" .optional (Node.optional ConfigMapKeySelector.recordType.decode)
      fun v r => { r with configMapKeyRef := v },
    .text? "default" fun v r => { r with default := v },
    .text? "event" fun v r => { r with event := v },
    .text? "expression" fun v r => { r with expression := v },
    .text? "jqFilter" fun v r => { r with jqFilter := v },
    .text? "jsonPath" fun v r => { r with jsonPath := v },
    .text? "parameter" fun v r => { r with parameter := v },
    .text? "path" fun v r => { r with path := v }]
  empty := {}

/-- How a `Parameter` is read: only its name has to be there, and the closed set of values stands
under `enum`. -/
def Parameter.recordType : RecordType Parameter where
  name := "Parameter"
  fields := [
    .of "name" .required Node.string fun v r => { r with name := v },
    .text? "default" fun v r => { r with default := v },
    .texts? "enum" fun v r => { r with allowed := v },
    .text? "value" fun v r => { r with value := v },
    .of "valueFrom" .optional (Node.optional ValueFrom.recordType.decode)
      fun v r => { r with valueFrom := v },
    .text? "description" fun v r => { r with description := v }]
  empty := { name := "" }

/-- How parameters are read from a record of their own, which is called `name` in messages and may
be empty. -/
def parametersType (name : String) : RecordType (List Parameter) where
  name := name
  fields := [.of "parameters" .defaulted (Node.list Parameter.recordType.decode) fun v _ => v]
  empty := []

/-- How an `EnvVar` is read: only its name has to be there. -/
def EnvVar.recordType : RecordType EnvVar where
  name := "EnvVar"
  fields := [
    .of "name" .required Node.string fun v r => { r with name := v },
    .text? "value" fun v r => { r with value := v }]
  empty := { name := "" }

/-- How a `Container` is read: every field may be missing, the environment also from the end of an
array. -/
def Container.recordType : RecordType Container where
  name := "Container"
  fields := [
    .text? "name" fun v r => { r with name := v },
    .text? "image" fun v r => { r with image := v },
    .texts? "command" fun v r => { r with command := v },
    .texts? "args" fun v r => { r with args := v },
    .text? "workingDir" fun v r => { r with workingDir := v },
    .of "env" .defaulted (Node.list EnvVar.recordType.decode) fun v r => { r with env := v }]
  empty := {}

/-- How a `Script` is read: its image and its source have to be there. -/
def Script.recordType : RecordType Script where
  name := "ScriptTemplate"
  fields := [
    .of "image" .required Node.string fun v r => { r with image := v },
    .texts? "command" fun v r => { r with command := v },
    .of "source" .required Node.string fun v r => { r with source := v },
    .text? "workingDir" fun v r => { r with workingDir := v },
    .of "env" .defaulted (Node.list EnvVar.recordType.decode) fun v r => { r with env := v }]
  empty := { image := "", source := "" }

/-- How a `ResourceAction` is read: by its name, as one of `ResourceAction.names`. -/
def ResourceAction.decode : Decoder ResourceAction :=
  Node.variant ResourceAction.names

/-- How a `MergeStrategy` is read: by its name, as one of `MergeStrategy.names`. -/
def MergeStrategy.decode : Decoder MergeStrategy :=
  Node.variant MergeStrategy.names

/-- How a `Resource` is read: only its action has to be there. -/
def Resource.recordType : RecordType Resource where
  name := "ResourceTemplate"
  fields := [
    .of "action" .required ResourceAction.decode fun v r => { r with action := v },
    .text? "manifest" fun v r => { r with manifest := v },
    .texts? "flags" fun v r => { r with flags := v },
    .of "mergeStrategy" .optional (Node.optional MergeStrategy.decode)
      fun v r => { r with mergeStrategy := v },
    .text? "failureCondition" fun v r => { r with failureCondition := v },
    .text? "successCondition" fun v r => { r with successCondition := v },
    .of "setOwnerReference" .optional (Node.optional Node.bool)
      fun v r => { r with setOwnerReference := v }]
  empty := { action := .get }

/-- How the content of a manifest of the given kind is read, without the key of the kind. -/
def ManifestKind.decodeBody : ManifestKind → Decoder Manifest
  | container, n => (Container.recordType.decode n).map .container
  | script, n => (Script.recordType.decode n).map .script
  | resource, n => (Resource.recordType.decode n).map .resource

/-- The readers of the contents of manifests (`ManifestKind.decodeBody`), by the keys of the kinds.
-/
def Manifest.readers : List (String × Decoder Manifest) :=
  [("container", ManifestKind.container.decodeBody), ("script", ManifestKind.script.decodeBody),
    ("resource", ManifestKind.resource.decodeBody)]

/-- How a manifest is read that stands by itself: as an object of the key of its kind and its
content. -/
def Manifest.decode : Decoder Manifest :=
  Node.tagged Manifest.readers

namespace Template

/-- A template whose manifest is not known yet: its name and inputs, and the members set aside so
far, the latest first. -/
structure Draft where
  name : String
  inputs : List Parameter
  others : List Json.Member

/-- How many containers may stand inside each other in a member that is set aside: one less than in
a whole text, since it stands in the object of the template. -/
def asideDepth : Nat := Json.maxDepth - 1

/-- How the name and the inputs of a template are read; only the name has to be there. -/
def Draft.recordType : RecordType Draft where
  name := "Template"
  fields := [
    .of "name" .required Node.string fun v r => { r with name := v },
    .of "inputs" .defaulted (parametersType "Inputs").decode fun v r => { r with inputs := v }]
  empty := { name := "", inputs := [], others := [] }

/-- Sets the member `m` aside, which is neither name nor inputs. It is read at once, with the bound
`asideDepth`, and kept without its places. -/
def Draft.setAside (m : Json.Member) (d : Draft) : Except DecodeError Draft :=
  match m.2.firstError asideDepth with
  | some e => .error e.toDecodeError
  | none => .ok { d with others := (m.1, m.2.detached) :: d.others }

/-- The manifest among members that were set aside: the content of the first whose name is the key
of a kind (`Manifest.readers`), also if the content cannot be read. -/
def manifestOf : List Json.Member → Except DecodeError Manifest
  | [] => .error ⟨.noVariant "Manifest", none⟩
  | (name, n) :: rest => do
    match Manifest.readers.lookup (← name.get) with
    | some decode => decode n
    | none => manifestOf rest

/-- How a `Template` is read: from an object only. An error of a member that was set aside is
noticed at the closing brace, since the member has no place any more. -/
def decode : Decoder Template
  | .object _ members closing => do
    let draft ← Draft.recordType.decodeObject Draft.setAside members closing
    let manifest ← (manifestOf draft.others.reverse).mapError (·.noticedAt closing.stop?)
    .ok { name := draft.name, inputs := draft.inputs, manifest }
  | n => .error (n.unexpected "struct Template")

/-- The template that the whole text `s` stands for; what follows the template is an error behind
those of the template. -/
def read (s : List Char) : Except DecodeError Template := do
  let (node, rest) := Json.Node.read s
  let t ← decode node
  match rest.trailing? with
  | some e => .error e.toDecodeError
  | none => .ok t

end Template

/-- How a `Sequence` is read: any of its fields may be missing, and the last number stands under
`end`. -/
def Sequence.recordType : RecordType Sequence where
  name := "Sequence"
  fields := [
    .of "count" .optional (Node.optional Node.uint64) fun v r => { r with count := v },
    .of "start" .optional (Node.optional Node.int64) fun v r => { r with start := v },
    .of "end" .optional (Node.optional Node.int64) fun v r => { r with last := v },
    .text? "format" fun v r => { r with format := v }]
  empty := {}

/-- How a `WorkflowStep` is read: its name and its template have to be there, and the condition
stands under `when`. -/
def WorkflowStep.recordType : RecordType WorkflowStep where
  name := "WorkflowStep"
  fields := [
    .of "name" .required Node.string fun v r => { r with name := v },
    .of "template" .required Node.string fun v r => { r with template := v },
    .of "arguments" .optional (Node.optional (parametersType "Arguments").decode)
      fun v r => { r with arguments := v },
    .of "withItems" .optional (Node.optional (Node.list Node.any))
      fun v r => { r with withItems := v },
    .text? "withParam" fun v r => { r with withParam := v },
    .of "withSequence" .optional (Node.optional Sequence.recordType.decode)
      fun v r => { r with withSequence := v },
    .text? "when" fun v r => { r with condition := v }]
  empty := { name := "", template := "" }

end WorkflowTemplates
