import WorkflowTemplates.Error
import WorkflowTemplates.Schema.Reading

/-!
# Where manifests come from

A manifest is given, as a value or as a document whose kind is still to be found out, or it is
produced by a description of a container or resource. A document that has one of the three kinds as
its only key is taken at its word; otherwise its fields tell the kind.
-/

namespace WorkflowTemplates

open Json (Node)

namespace ManifestKind

/-- The kind whose key is `key`, if there is one (`ManifestKind.key`). -/
def ofKey? (key : String) : Option ManifestKind :=
  if key = "container" then some container
  else if key = "script" then some script
  else if key = "resource" then some resource
  else none

/-- The kind that the fields of an object tell by their names: a source makes a script, an action or
a manifest a resource, and an image, a command or arguments a container. The first of these counts.
-/
def ofFields? (names : List String) : Option ManifestKind :=
  if "source" ∈ names then some script
  else if "action" ∈ names ∨ "manifest" ∈ names then some resource
  else if "image" ∈ names ∨ "command" ∈ names ∨ "args" ∈ names then some container
  else none

/-- The kind of an object that has it as its only key, and what stands under the key; an object of
more members has none. -/
def keyed? : List (String × Json) → Option (ManifestKind × Json)
  | [(key, inner)] => (ofKey? key).map fun kind => (kind, inner)
  | _ => none

/-- The kind of a manifest document: the one that it is keyed by (`keyed?`), or else the one that
its fields tell (`ofFields?`). Only objects have a kind. -/
def classify : Json → Except Error ManifestKind
  | .object members =>
    match keyed? members, ofFields? (members.map (·.1)) with
    | some (kind, _), _ => .ok kind
    | none, some kind => .ok kind
    | none, none => .error (.unknownManifestKind (.noKnownField (members.map (·.1))))
  | v => .error (.unknownManifestKind (.notAnObject v.compact))

end ManifestKind

/-- A manifest that is given, as a value or as a document. -/
inductive ManifestSpec
  | typed (m : Manifest)
  /-- A document whose kind is still to be found out. -/
  | raw (document : Json)
  deriving DecidableEq

namespace ManifestSpec

/-- The content of `document`: what stands under its only key, if that is a kind, or else the whole
document. -/
def body (document : Json) : Json :=
  match document with
  | .object members => ((ManifestKind.keyed? members).map (·.2)).getD document
  | _ => document

/-- The manifest of `document`, read by its kind (`ManifestKind.classify`). An action must be among
the fields of a resource, which is looked at before they are read. -/
def resolveRaw (document : Json) : Except Error Manifest :=
  match ManifestKind.classify document with
  | .error e => .error e
  | .ok kind =>
    if kind = .resource ∧ (body document).get? "action" = none then .error (.missingField "action")
    else match kind.decodeBody (Node.ofJson (body document)) with
      | .ok m => .ok m
      | .error e => .error (.invalidManifest kind e)

/-- The manifest that is given, or the error of a document (`resolveRaw`). -/
def resolve : ManifestSpec → Except Error Manifest
  | typed m => .ok m
  | raw document => resolveRaw document

end ManifestSpec

/-- A description of a container, from which its manifest is produced. -/
structure ContainerRecipe where
  image : String
  command : Option (List String) := none
  args : Option (List String) := none
  env : List EnvVar := []
  deriving DecidableEq

/-- The container that `r` describes, which must have an image. -/
def ContainerRecipe.produce (r : ContainerRecipe) : Except Error Manifest :=
  if r.image = "" then .error (.missingField "image")
  else .ok (.container {
    image := some r.image, command := r.command, args := r.args, env := r.env })

/-- A description of a resource, from which its manifest is produced. -/
structure ResourceRecipe where
  action : Option ResourceAction := none
  manifest : Option String := none
  flags : Option (List String) := none
  mergeStrategy : Option MergeStrategy := none
  failureCondition : Option String := none
  successCondition : Option String := none
  setOwnerReference : Option Bool := none
  deriving DecidableEq

/-- The resource that `r` describes, which must have an action. -/
def ResourceRecipe.produce (r : ResourceRecipe) : Except Error Manifest :=
  match r.action with
  | none => .error (.missingField "action")
  | some action => .ok (.resource {
      action
      manifest := r.manifest
      flags := r.flags
      mergeStrategy := r.mergeStrategy
      failureCondition := r.failureCondition
      successCondition := r.successCondition
      setOwnerReference := r.setOwnerReference })

end WorkflowTemplates
