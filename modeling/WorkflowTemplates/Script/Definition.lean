import WorkflowTemplates.Script.Source
import WorkflowTemplates.Template.Compiled

/-!
# Script definitions

A script template is defined by a flavor and a sequence of edits, or starts from the source of a
function. What the edits leave open comes from the settings. Where shell runs around the script, or
the settings say so, the script goes through the runner.
-/

namespace WorkflowTemplates

/-- A script template before it is compiled. What is `none` comes from the `settings`, the name
apart, which has no default. -/
structure ScriptDefinition where
  flavor : Flavor := .plain
  name : Option String := none
  image : Option String := none
  body : String := ""
  parameters : List Declaration := []
  command : Option String := none
  preRun : Option String := none
  postRun : Option String := none
  settings : ScriptSettings := {}
  hooks : HookChain := {}

/-- A change of a script definition, as a caller makes it one after the other. -/
inductive ScriptEdit
  | name (s : String)
  | image (s : String)
  | body (s : String)
  | command (s : String)
  | preRun (s : String)
  | postRun (s : String)
  /-- Adds a parameter behind those that are there. -/
  | parameter (d : Declaration)
  /-- Replaces all parameters that are there. -/
  | parameters (ds : List Declaration)
  | settings (s : ScriptSettings)
  | hook (h : Hook)

namespace ScriptDefinition

/-- The definition `d` behind one change. A value that was set before is replaced; parameters and
hooks are added at the end. -/
def edit (d : ScriptDefinition) : ScriptEdit → ScriptDefinition
  | .name s => { d with name := some s }
  | .image s => { d with image := some s }
  | .body s => { d with body := s }
  | .command s => { d with command := some s }
  | .preRun s => { d with preRun := some s }
  | .postRun s => { d with postRun := some s }
  | .parameter p => { d with parameters := d.parameters ++ [p] }
  | .parameters ps => { d with parameters := ps }
  | .settings s => { d with settings := s }
  | .hook h => { d with hooks := d.hooks.push h }

/-- The definition `d` behind changes that are made one after the other (`edit`). -/
def editAll (d : ScriptDefinition) (edits : List ScriptEdit) : ScriptDefinition :=
  edits.foldl edit d

/-- The definition of a script from the function `f`: its name, its parameters and its script
(`Function.scriptText`). -/
def ofFunction (flavor : Flavor) (f : Function) : ScriptDefinition :=
  { flavor, name := some f.name, parameters := f.parameters, body := f.scriptText }

/-- The definition of a script from the source of a function, or the error for which the source
cannot be read (`Function.read`). -/
def ofSource (flavor : Flavor) (source : String) : Except Error ScriptDefinition :=
  match Function.read source with
  | .ok f => .ok (ofFunction flavor f)
  | .error e => .error (.function e)

/-- The source of the script, outside the runner: the body behind the prologue of the flavor
(`Flavor.assemble`). -/
def source (d : ScriptDefinition) : String :=
  d.flavor.assemble d.parameters d.body

/-- The command that runs the source: the one that was set, else the one that the settings have for
the flavor. -/
def runtime (d : ScriptDefinition) : String :=
  d.command.getD (d.flavor.runtime d.settings)

/-- The shell that runs before the script: the one that was set, even to nothing, else the one of
the settings. -/
def shellBefore (d : ScriptDefinition) : String :=
  d.preRun.getD d.settings.preRun

/-- The shell that runs after the script: the one that was set, even to nothing, else the one of the
settings. -/
def shellAfter (d : ScriptDefinition) : String :=
  d.postRun.getD d.settings.postRun

/-- Whether the script goes through the runner: the settings say so, or shell runs before or after
it. -/
def isWrapped (d : ScriptDefinition) : Bool :=
  d.settings.alwaysWrap || d.shellBefore != "" || d.shellAfter != ""

/-- The manifest of the script, or the error that no image was set or given by the settings. It runs
the source by the `runtime`, or by `bash` if it goes through the runner. -/
def produce (d : ScriptDefinition) : Except Error Manifest :=
  let image := d.image.getD d.settings.defaultImage
  if image = "" then .error (.missingField "image")
  else if d.isWrapped then
    .ok (.script {
      image
      command := some ["bash"]
      source := runner d.source d.runtime d.shellBefore d.shellAfter d.settings })
  else .ok (.script { image, command := some [d.runtime], source := d.source })

/-- The definition of the template that the script is for, or the error that no name was set.
Parameters and hooks are those of the script, and the manifest is made when the template is compiled
(`produce`). -/
def build (d : ScriptDefinition) : Except Error TemplateDefinition :=
  match d.name with
  | none => .error (.missingField "name")
  | some name =>
    .ok { name, parameters := d.parameters, hooks := d.hooks, producer := some d.produce }

/-- The compiled template of the script: its definition (`build`), compiled with its hooks. -/
def compile (d : ScriptDefinition) : Except Error CompiledTemplate := do
  let t ← d.build
  t.compile

end ScriptDefinition

end WorkflowTemplates
