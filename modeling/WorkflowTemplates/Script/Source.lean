import WorkflowTemplates.Settings.Basic
import WorkflowTemplates.Text.Blank
import WorkflowTemplates.Value.Basic

/-!
# Script sources

The source of a script is a text behind a prologue that binds the parameters of the template. What
the prologue looks like depends on the flavor of the script. The runner is a shell script that
writes the source to a file and runs it between other shell.
-/

namespace WorkflowTemplates

/-- What a script is written for, by which its parameters are bound and a command is chosen. -/
inductive Flavor
  | plain
  | bash
  | python
  deriving DecidableEq

/-- The placeholder in a script for which the engine puts the value of the parameter `name`. -/
def inputPlaceholder (name : String) : String :=
  "\x7b\x7binputs.parameters." ++ name ++ "\x7d\x7d"

namespace Flavor

/-- The command that runs scripts of the flavor `f`, by the settings `s`. -/
def runtime (f : Flavor) (s : ScriptSettings) : String :=
  match f with
  | plain => s.plainCommand
  | bash => s.bashCommand
  | python => s.pythonCommand

/-- The line that binds the parameter `d` in a shell: an assignment of the placeholder between
double quotes. -/
def bashLine (d : Declaration) : String :=
  d.name ++ "=\"" ++ inputPlaceholder d.name ++ "\""

/-- The line that binds the parameter `d` in Python, by the category of its declared type: between
quotes, as it is, or decoded from the hexadecimal text of a JSON value. -/
def pythonLine (d : Declaration) : String :=
  match d.type.category with
  | .text | .reference => d.name ++ " = \"" ++ inputPlaceholder d.name ++ "\""
  | .scalar => d.name ++ " = " ++ inputPlaceholder d.name
  | .packed => d.name ++ " = json.loads(bytes.fromhex(\"" ++ inputPlaceholder d.name ++ "\"))"

/-- The lines that bind parameters in Python. The import that packed values need stands before the
first of them; the flag tells that it was written. -/
def pythonLines : Bool → List Declaration → List String
  | _, [] => []
  | imported, d :: rest =>
    if d.type.category = .packed ∧ imported = false then
      "import json" :: pythonLine d :: pythonLines true rest
    else pythonLine d :: pythonLines imported rest

/-- The lines that bind `parameters` in a script of the flavor `f`; a plain script finds its values
itself. -/
def prologueLines (f : Flavor) (parameters : List Declaration) : List String :=
  match f with
  | plain => []
  | bash => parameters.map bashLine
  | python => pythonLines false parameters

/-- The prologue of a script: its lines (`prologueLines`), joined by line feeds. -/
def prologue (f : Flavor) (parameters : List Declaration) : String :=
  "\n".intercalate (f.prologueLines parameters)

/-- The `text` behind the prologue, on a line of its own; without a prologue it is the text alone.
-/
def assemble (f : Flavor) (parameters : List Declaration) (text : String) : String :=
  let prologue := f.prologue parameters
  if prologue = "" then text else prologue ++ "\n" ++ text

end Flavor

/-- A shell script that writes `source` to a file, through a heredoc with the delimiter of the
settings, and runs it by `runtime` between the shell `preRun` and `postRun`. Blank characters at
both ends are trimmed. -/
def runner (source runtime preRun postRun : String) (s : ScriptSettings) : String :=
  let text := "cat > " ++ s.runnerPath ++ " << " ++ s.heredocDelimiter ++ "\n" ++ source ++ "\n"
    ++ s.heredocDelimiter ++ "\n\nset -e\n\n" ++ preRun ++ "\n" ++ runtime ++ " " ++ s.runnerPath
    ++ "\n" ++ postRun
  String.ofList (Text.trim text.toList)

end WorkflowTemplates
