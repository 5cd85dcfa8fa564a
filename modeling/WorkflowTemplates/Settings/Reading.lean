import WorkflowTemplates.Document.Basic
import WorkflowTemplates.Json.Decode
import WorkflowTemplates.Settings.Basic

/-!
# Reading and writing settings

Settings are read from a JSON node, in which every field may be missing, and written as a document
of all fields.
-/

namespace WorkflowTemplates

open Json (Node RecordType)

/-- The field `name` of the settings of scripts, whose text `put` stores; it may be missing
everywhere. -/
def textSetting (name : String) (put : String → ScriptSettings → ScriptSettings) :
    Json.Field ScriptSettings :=
  .of name .defaulted Node.string put

/-- How `ScriptSettings` are read, with their defaults for the fields that are missing. -/
def ScriptSettings.recordType : RecordType ScriptSettings where
  name := "ScriptConfig"
  fields := [
    textSetting "default_image" fun v s => { s with defaultImage := v },
    textSetting "bash_command" fun v s => { s with bashCommand := v },
    textSetting "python_command" fun v s => { s with pythonCommand := v },
    textSetting "plain_command" fun v s => { s with plainCommand := v },
    textSetting "runner_path" fun v s => { s with runnerPath := v },
    textSetting "heredoc_delimiter" fun v s => { s with heredocDelimiter := v },
    textSetting "pre_run" fun v s => { s with preRun := v },
    textSetting "post_run" fun v s => { s with postRun := v },
    .of "always_wrap" .defaulted Node.bool fun v s => { s with alwaysWrap := v }]
  empty := {}

/-- How a `RenderFormat` is read from its record, with YAML if the field is missing. -/
def RenderFormat.recordType : RecordType RenderFormat where
  name := "RenderConfig"
  fields := [.of "format" .defaulted (Node.variant RenderFormat.names) fun v _ => v]
  empty := .yaml

/-- How `Settings` are read, with the defaults of a part that is missing. -/
def Settings.recordType : RecordType Settings where
  name := "DslConfig"
  fields := [
    .of "script" .defaulted ScriptSettings.recordType.decode fun v s => { s with script := v },
    .of "render" .defaulted RenderFormat.recordType.decode fun v s => { s with format := v }]
  empty := {}

/-- The `ScriptSettings` as a document of all fields, the ones with defaults too. -/
def ScriptSettings.toDocument (s : ScriptSettings) : Document :=
  .record [
    ("default_image", .string s.defaultImage),
    ("bash_command", .string s.bashCommand),
    ("python_command", .string s.pythonCommand),
    ("plain_command", .string s.plainCommand),
    ("runner_path", .string s.runnerPath),
    ("heredoc_delimiter", .string s.heredocDelimiter),
    ("pre_run", .string s.preRun),
    ("post_run", .string s.postRun),
    ("always_wrap", .bool s.alwaysWrap)]

/-- A `RenderFormat` as a document, a record of the one field `format`. -/
def RenderFormat.toDocument (f : RenderFormat) : Document :=
  .record [("format", .string f.name)]

/-- The `Settings` as a document of both parts. -/
def Settings.toDocument (s : Settings) : Document :=
  .record [("script", s.script.toDocument), ("render", s.format.toDocument)]

end WorkflowTemplates
