/-!
# Settings

Scripts have default images and runtimes, a runner with a path and a delimiter, and shell that runs
around them; rendered documents have a format.
-/

namespace WorkflowTemplates

/-- The settings of scripts, with their defaults. -/
structure ScriptSettings where
  /-- The image of a script that names none; without either a script has no template. -/
  defaultImage : String := ""
  bashCommand : String := "bash"
  pythonCommand : String := "python"
  plainCommand : String := "sh"
  /-- Where the runner writes a script to (`Flavor.runner`). -/
  runnerPath : String := "/tmp/script"
  /-- The line that ends a script inside the runner, as the delimiter of its heredoc. -/
  heredocDelimiter : String := "EOL"
  /-- Shell that runs before a script that sets none itself. -/
  preRun : String := ""
  /-- Shell that runs after a script that sets none itself. -/
  postRun : String := ""
  /-- Whether scripts without shell around them use the runner too. -/
  alwaysWrap : Bool := false
  deriving DecidableEq

/-- The format of rendered documents, which is YAML unless the settings say otherwise. -/
inductive RenderFormat
  | yaml
  | json
  deriving DecidableEq

/-- All settings: those of scripts, and the format of what is rendered. -/
structure Settings where
  script : ScriptSettings := {}
  format : RenderFormat := .yaml
  deriving DecidableEq

/-- The formats under the names by which they are read. -/
def RenderFormat.names : List (String × RenderFormat) :=
  [("yaml", yaml), ("json", json)]

/-- The name by which a format is written; `RenderFormat.names` reads it. -/
def RenderFormat.name : RenderFormat → String
  | yaml => "yaml"
  | json => "json"

end WorkflowTemplates
