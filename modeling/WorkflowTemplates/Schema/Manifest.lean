/-!
# Manifests

A template runs a container, a script inlined into a container, or an action on a resource. Its
manifest is exactly one of the three.
-/

namespace WorkflowTemplates

/-- An environment variable of a container, whose value may be left to the engine. -/
structure EnvVar where
  name : String
  value : Option String := none
  deriving DecidableEq

/-- A container of the workflow engine: an image, its command line, and the environment in which it
runs. -/
structure Container where
  name : Option String := none
  image : Option String := none
  command : Option (List String) := none
  args : Option (List String) := none
  workingDir : Option String := none
  env : List EnvVar := []
  deriving DecidableEq

/-- A container whose program is given as its `source`: the engine writes it to a file and runs
`command` on it. -/
structure Script where
  image : String
  /-- The command that runs the source, with its arguments before the file. -/
  command : Option (List String) := none
  source : String
  workingDir : Option String := none
  env : List EnvVar := []
  deriving DecidableEq

/-- What is done to a resource of the cluster. -/
inductive ResourceAction
  | get
  | create
  | apply
  | delete
  | replace
  | patch
  deriving DecidableEq

/-- How a patch is merged into a resource, for the action `ResourceAction.patch`. -/
inductive MergeStrategy
  | strategic
  | merge
  | json
  deriving DecidableEq

/-- An action on a resource of the cluster, and how its success is judged. -/
structure Resource where
  action : ResourceAction
  /-- The document of the resource itself, which nobody interprets here. -/
  manifest : Option String := none
  flags : Option (List String) := none
  mergeStrategy : Option MergeStrategy := none
  failureCondition : Option String := none
  successCondition : Option String := none
  setOwnerReference : Option Bool := none
  deriving DecidableEq

/-- What a template runs: exactly one of a container, a script inlined into one, and an action on a
resource. -/
inductive Manifest
  | container (c : Container)
  | script (s : Script)
  | resource (r : Resource)
  deriving DecidableEq

/-- The three kinds of manifests, which have no content (`Manifest.kind`). -/
inductive ManifestKind
  | container
  | script
  | resource
  deriving DecidableEq

/-- The actions under the names by which they are read. -/
def ResourceAction.names : List (String × ResourceAction) :=
  [("get", get), ("create", create), ("apply", apply), ("delete", delete), ("replace", replace),
    ("patch", patch)]

/-- The name by which an action is written; `ResourceAction.names` reads it. -/
def ResourceAction.name : ResourceAction → String
  | get => "get"
  | create => "create"
  | apply => "apply"
  | delete => "delete"
  | replace => "replace"
  | patch => "patch"

/-- The merge strategies under the names by which they are read. -/
def MergeStrategy.names : List (String × MergeStrategy) :=
  [("strategic", strategic), ("merge", merge), ("json", json)]

/-- The name by which a merge strategy is written; `MergeStrategy.names` reads it. -/
def MergeStrategy.name : MergeStrategy → String
  | strategic => "strategic"
  | merge => "merge"
  | json => "json"

/-- The key of a kind, by which documents are keyed and which messages name. -/
def ManifestKind.key : ManifestKind → String
  | container => "container"
  | script => "script"
  | resource => "resource"

/-- The kind of a manifest, by its constructor. -/
def Manifest.kind : Manifest → ManifestKind
  | container _ => .container
  | script _ => .script
  | resource _ => .resource

/-- The key under which a manifest is written: that of its `kind`. -/
def Manifest.key (m : Manifest) : String :=
  m.kind.key

/-- The manifest with the given `image` in place of its own; a resource has none and stays. -/
def Manifest.withImage (image : String) : Manifest → Manifest
  | container c => container { c with image := some image }
  | script s => script { s with image := image }
  | resource r => resource r

/-- The manifest with the given `command` in place of its own; a resource has none and stays. -/
def Manifest.withCommand (command : List String) : Manifest → Manifest
  | container c => container { c with command := some command }
  | script s => script { s with command := some command }
  | resource r => resource r

theorem ResourceAction.lookup_name (a : ResourceAction) :
    ResourceAction.names.lookup a.name = some a := by
  cases a <;> decide

theorem MergeStrategy.lookup_name (m : MergeStrategy) :
    MergeStrategy.names.lookup m.name = some m := by
  cases m <;> decide

end WorkflowTemplates
