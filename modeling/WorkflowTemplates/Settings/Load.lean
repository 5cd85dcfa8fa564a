import WorkflowTemplates.Json.Reader
import WorkflowTemplates.Settings.Reading
import WorkflowTemplates.Settings.Toml.Reader
import WorkflowTemplates.Settings.Typed

/-!
# Loading settings

Settings come from three layers: the defaults, a file in one of two formats, and environment
variables. A later layer replaces what an earlier one says, name by name. A variable belongs to the
settings if its name starts with a prefix; behind it, two underscores lead into a table. The text of
a variable is a truth value or a number if it reads as one.
-/

namespace WorkflowTemplates

/-- The formats of files of settings, told apart by the name of the file. -/
inductive SettingsFormat
  | toml
  | json
  deriving DecidableEq

/-- Why settings cannot be loaded: for the file, or for the tree that all layers make. -/
inductive SettingsError
  /-- The file is not in its format, or its outermost value is no table. -/
  | malformedFile
  /-- A setting has a value of the wrong kind, in whichever layer it stands. -/
  | wrongKind
  deriving DecidableEq

/-- The wording of an error, behind the words that `Error.message` puts before it. -/
def SettingsError.message : SettingsError → String
  | malformedFile => "the file of settings cannot be read"
  | wrongKind => "a setting has a value of the wrong kind"

namespace Settings

/-- The lowest layer: every setting with its default, as it is written to JSON. -/
def defaultLayer : List (String × Setting) :=
  (Setting.ofJson ({} : Settings).toDocument.toJson).entries

/-- The layer of a JSON text, which must be an object; its members are entries under names in lower
case. -/
def jsonLayer? (s : List Char) : Option (List (String × Setting)) :=
  match Json.read s with
  | .ok (.object members) => some (Setting.ofMembers members)
  | _ => none

/-- The layer of the `text` of a file, read by its format (`Toml.read?`, `jsonLayer?`). -/
def fileLayer? (format : SettingsFormat) (text : String) : Option (List (String × Setting)) :=
  match format with
  | .toml => Toml.read? text.toList
  | .json => jsonLayer? text.toList

/-- How the names of variables start that belong to the settings, in lower case. -/
def variablePrefix : List Char :=
  "argo_dsl_".toList

/-- The text with a point in the place of every two underscores, from the left. -/
def replaceSeparators : List Char → List Char
  | '_' :: '_' :: s => '.' :: replaceSeparators s
  | c :: s => c :: replaceSeparators s
  | [] => []

/-- The path that the variable `name` stands for, if it starts with `variablePrefix` in any case:
the rest in lower case, with its separators replaced (`replaceSeparators`). -/
def variablePath? (name : String) : Option String :=
  let lower := Text.lowerCase name.toList
  if variablePrefix.isPrefixOf lower then
    some (String.ofList (replaceSeparators (lower.drop variablePrefix.length)))
  else none

/-- The setting of the `text` of a variable: a truth value if it is a word for one in any case, else
an integer or a number if it reads as one, else the text. -/
def variableSetting (text : String) : Setting :=
  let lower := Setting.lowerName text
  if lower = "true" then .boolean true
  else if lower = "false" then .boolean false
  else match Decimal.readInteger 10 text.toList, Decimal.readFloat text.toList with
    | .ok i, _ => .integer i
    | .error _, .ok x => .float x
    | .error _, .error _ => .text text

/-- The layer of environment variables: those that belong to the settings (`variablePath?`), in the
order of the environment. -/
def variableLayer (environment : List (String × String)) : List (String × Setting) :=
  environment.filterMap fun (name, text) =>
    (variablePath? name).map fun path => (path, variableSetting text)

/-- The tree that layers make, put over each other from the lowest on (`Setting.overlay`). -/
def layered (layers : List (List (String × Setting))) : Setting :=
  layers.foldl Setting.overlay (.table [])

/-- The settings of a file, if there is one, and of environment variables: the defaults, then the
file, then the variables, so that the later one counts. The file is read before anything is looked
at. -/
def load (file : Option (SettingsFormat × String)) (environment : List (String × String)) :
    Except SettingsError Settings :=
  let fileLayer := match file with
    | none => some []
    | some (format, text) => fileLayer? format text
  match fileLayer with
  | none => .error .malformedFile
  | some fileLayer =>
    match ofTree? (layered [defaultLayer, fileLayer, variableLayer environment]) with
    | none => .error .wrongKind
    | some s => .ok s

end Settings

end WorkflowTemplates
