import WorkflowTemplates.Json.Decode
import WorkflowTemplates.Schema.Template
import WorkflowTemplates.Settings.Load
import WorkflowTemplates.Source.Function
import WorkflowTemplates.Value.Encoding

/-!
# Errors

Every error is a defect of a definition: of how a template is put together or configured, of a value
that has no encoding, or of the source of a function. `Error.message` is its wording and
`Error.family` says which of the three it is.
-/

namespace WorkflowTemplates

/-- Why the kind of a manifest document is unknown: the document is no object, or it has none of the
fields that name kinds. -/
inductive KindFault
  | notAnObject (shown : String)
  | noKnownField (names : List String)
  deriving DecidableEq

/-- The wording of a fault, behind the words that `Error.message` puts before it. -/
def KindFault.message : KindFault → String
  | notAnObject shown => "expected an object, found " ++ shown
  | noKnownField names => "no manifest kind has fields [" ++ ", ".intercalate names ++ "]"

/-- A defect of a definition, one constructor for each place where one is found. -/
inductive Error
  | unknownManifestKind (fault : KindFault)
  | invalidManifest (kind : ManifestKind) (e : Json.DecodeError)
  | missingManifest (template : String)
  | missingField (name : String)
  | duplicateParameter (name : String)
  | unknownTemplate (name : String)
  | templateMismatch (step expected found : String)
  | settings (e : SettingsError)
  | encoding (e : EncodingError)
  | function (e : FunctionError)
  | template (e : TemplateError)
  deriving DecidableEq

/-- What an error is a defect of: how a template is put together or configured, a value that has no
encoding, or the source of a function. -/
inductive ErrorFamily
  | configuration
  | encoding
  | introspection
  deriving DecidableEq

namespace Error

/-- The wording of an error. The messages of other modules' errors are repeated, behind what they
are about. -/
def message : Error → String
  | unknownManifestKind fault => "Unknown manifest kind: " ++ fault.message
  | invalidManifest kind e => "Invalid " ++ kind.key ++ " manifest: " ++ e.message
  | missingManifest name => "Template '" ++ name ++ "' has no manifest and no manifest producer"
  | missingField name => "Missing required field: " ++ name
  | duplicateParameter name => "Duplicate parameter: '" ++ name ++ "'"
  | unknownTemplate name => "Unknown template: '" ++ name ++ "'"
  | templateMismatch step expected found =>
    "Step '" ++ step ++ "' is bound to template '" ++ expected ++ "', not '" ++ found ++ "'"
  | settings e => "Configuration error: " ++ e.message
  | encoding e => e.message
  | function e => e.message
  | template e => "Template error: " ++ e.message

/-- What an error is a defect of; only `encoding` and `function` are not about the configuration. -/
def family : Error → ErrorFamily
  | encoding _ => .encoding
  | function _ => .introspection
  | _ => .configuration

end Error

end WorkflowTemplates
