import WorkflowTemplates.Document.Basic
import WorkflowTemplates.Document.Yaml
import WorkflowTemplates.Error
import WorkflowTemplates.Schema.Written
import WorkflowTemplates.Settings.Basic
import WorkflowTemplates.Template.Hook
import WorkflowTemplates.Template.Manifest

/-!
# Compiling templates

A declaration becomes an input parameter, with its default encoded (`Declaration.buildParameter`);
the schema of a template is built of declarations under distinct names (`buildParameters`).

A definition is compiled in a fixed order (`TemplateDefinition.compile`), and the first thing that
fails is the error: the parameters, the name, the manifest, then the hooks run, and at last the
result is validated. A compiled template keeps the declarations, whose types encode the arguments of
its calls.
-/

namespace WorkflowTemplates

/-! ## Input parameters -/

/-- The input parameter of the declaration `d` whose default is encoded: a text is its default, a
reference its source, and the texts of a closed set are allowed. -/
def Declaration.toParameter (d : Declaration) : Option Encoded → Parameter
  | none => { name := d.name, allowed := d.type.choices? }
  | some (.literal text) =>
    { name := d.name, default := some text, allowed := d.type.choices? }
  | some (.reference v) =>
    { name := d.name, valueFrom := some v, allowed := d.type.choices? }

/-- The input parameter of the declaration `d`, or the error of a default that has no encoding
(`Declaration.encodeDefault`). -/
def Declaration.buildParameter (d : Declaration) : Except Error Parameter :=
  match d.encodeDefault with
  | .ok encoded => .ok (d.toParameter encoded)
  | .error e => .error (.encoding e)

/-- The input parameters of declarations, after declarations of the names `seen`. The first
declaration at fault gives the error, a name that was seen before a default without encoding. -/
def buildAfter (seen : List String) : List Declaration → Except Error (List Parameter)
  | [] => .ok []
  | d :: rest =>
    if d.name ∈ seen then .error (.duplicateParameter d.name)
    else do
      let p ← d.buildParameter
      let ps ← buildAfter (d.name :: seen) rest
      .ok (p :: ps)

/-- The input parameters of `declarations`, one for each and in their order, or the first error
(`buildAfter`). -/
def buildParameters (declarations : List Declaration) : Except Error (List Parameter) :=
  buildAfter [] declarations

/-- A template before it is compiled. A manifest that is given goes before one that is produced. -/
structure TemplateDefinition where
  name : String
  parameters : List Declaration := []
  manifest : Option ManifestSpec := none
  producer : Option (Except Error Manifest) := none
  hooks : HookChain := {}

/-- A template that was compiled, and the declarations of its parameters, whose types encode the
arguments of its calls. -/
structure CompiledTemplate where
  template : Template
  declarations : List Declaration
  deriving DecidableEq

namespace TemplateDefinition

/-- The definition `d` with the parameter `p` behind its own. -/
def addParameter (d : TemplateDefinition) (p : Declaration) : TemplateDefinition :=
  { d with parameters := d.parameters ++ [p] }

/-- The definition `d` with the hook `h` behind its own (`HookChain.push`). -/
def addHook (d : TemplateDefinition) (h : Hook) : TemplateDefinition :=
  { d with hooks := d.hooks.push h }

/-- The definition `d` with the hooks of the chain `c` behind its own (`HookChain.extend`). -/
def addHooks (d : TemplateDefinition) (c : HookChain) : TemplateDefinition :=
  { d with hooks := d.hooks.extend c }

/-- The manifest that is given, or else produced, or its error; without either it is missing. -/
def resolveManifest (d : TemplateDefinition) : Except Error Manifest :=
  match d.manifest, d.producer with
  | some spec, _ => spec.resolve
  | none, some produced => produced
  | none, none => .error (.missingManifest d.name)

/-- Checks that the name of the definition `d` is not blank (`Text.isBlankLine`), before the
manifest is looked at. -/
def checkName (d : TemplateDefinition) : Except Error Unit :=
  if Text.isBlankLine d.name.toList then .error (.missingField "name") else .ok ()

/-- The compiled template of the definition `d`, or the error of the first phase that fails: the
parameters, the name, the manifest, and behind the hooks, which cannot fail, the check of the whole
(`Template.validate`). -/
def compile (d : TemplateDefinition) : Except Error CompiledTemplate := do
  let inputs ← buildParameters d.parameters
  d.checkName
  let manifest ← d.resolveManifest
  let template := d.hooks.apply { name := d.name, inputs, manifest }
  match template.validate with
  | .ok () => .ok ⟨template, d.parameters⟩
  | .error e => .error (.template e)

end TemplateDefinition

namespace CompiledTemplate

/-- The name of the template, which hooks may have changed. -/
def name (c : CompiledTemplate) : String :=
  c.template.name

/-- The type that was declared for the parameter called `parameter`; hooks do not change
declarations. -/
def declaredType? (c : CompiledTemplate) (parameter : String) : Option TypeTag :=
  WorkflowTemplates.declaredType? c.declarations parameter

/-- The parameters of the call with the arguments `a`, encoded by the declared types
(`Arguments.resolve`). -/
def resolveArguments (c : CompiledTemplate) (a : Arguments) :
    Except EncodingError (List Parameter) :=
  a.resolve c.declaredType?

/-- The names of the parameters that a call must supply (`Parameter.isRequired`), in their order. -/
def requiredNames (c : CompiledTemplate) : List String :=
  (c.template.inputs.filter (·.isRequired)).map (·.name)

end CompiledTemplate

/-- The text of a document in the given format: YAML, or JSON over several lines. -/
def RenderFormat.render : RenderFormat → Document → String
  | yaml => Yaml.ofDocument
  | json => Document.toPretty

end WorkflowTemplates
