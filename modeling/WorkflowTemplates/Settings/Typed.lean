import WorkflowTemplates.Decimal.Layout
import WorkflowTemplates.Settings.Basic
import WorkflowTemplates.Settings.Tree

/-!
# Typed settings

Settings are taken out of a tree leniently: a text may be given as a truth value or a number, a
truth value as a number or a word, and a record as a list of its fields in order. Names that nobody
knows are ignored, and a name that is missing keeps its default.
-/

namespace WorkflowTemplates

namespace Setting

/-- The text of the number `x` as a setting: positional, and without a point if it is whole
(`FloatLayout.plain`). -/
def floatText (x : Binary64) : String :=
  String.ofList (Decimal.FloatLayout.plain.text x)

/-- The text of a setting: a text as it stands, or a truth value or number in its usual writing. -/
def toText? : Setting → Option String
  | text s => some s
  | boolean b => some (if b then "true" else "false")
  | integer i => some (String.ofList (Decimal.integer i.toInt))
  | float x => some (floatText x)
  | _ => none

/-- The truth value of a `word` in lower case, if it stands for one. -/
def wordValue? (word : String) : Option Bool :=
  if word ∈ ["1", "true", "on", "yes"] then some true
  else if word ∈ ["0", "false", "off", "no"] then some false
  else none

/-- The truth value of a setting: one as it stands, a number, which is true unless it is zero, or a
word (`wordValue?`) in any case. -/
def toBool? : Setting → Option Bool
  | boolean b => some b
  | integer i => some (i != 0)
  | float x => some !x.isZero
  | text s => wordValue? (lowerName s)
  | _ => none

/-- The format called `name`, in any case. -/
def formatNamed? (name : String) : Option RenderFormat :=
  RenderFormat.names.lookup (lowerName name)

/-- The format of a setting: its name, or a table with the name as its only key, whatever stands
under it. -/
def toFormat? : Setting → Option RenderFormat
  | text s => formatNamed? s
  | table [(name, _)] => formatNamed? name
  | _ => none

/-- A named part of a record of the type `ρ`, and how it is taken out of a setting and stored. -/
structure Part (ρ : Type) where
  name : String
  store : Setting → ρ → Option ρ

/-- The part `name` whose value is taken out of the setting by `read` and stored by `put`. -/
def Part.of {ρ α : Type} (name : String) (read : Setting → Option α) (put : α → ρ → ρ) :
    Part ρ where
  name := name
  store v r := (read v).map fun x => put x r

variable {ρ : Type}

/-- The record with the parts of a table, as far as they are there; entries under other names are
not looked at. -/
def ofEntries? (entries : List (String × Setting)) : List (Part ρ) → ρ → Option ρ
  | [], r => some r
  | part :: rest, r =>
    match entries.lookup part.name with
    | none => ofEntries? entries rest r
    | some v => (part.store v r).bind (ofEntries? entries rest)

/-- The record with the parts of a list, in order and as far as the list goes; further items are not
looked at. -/
def ofItems? : List (Part ρ) → List Setting → ρ → Option ρ
  | part :: rest, v :: items, r => (part.store v r).bind (ofItems? rest items)
  | _, _, r => some r

/-- A record that starts out as `default`, from a table of its parts (`ofEntries?`) or a list of
them (`ofItems?`). -/
def toRecord? (parts : List (Part ρ)) (default : ρ) : Setting → Option ρ
  | table entries => ofEntries? entries parts default
  | list items => ofItems? parts items default
  | _ => none

end Setting

/-- The parts of `ScriptSettings`, each a text but the last, which is a truth value. -/
def ScriptSettings.parts : List (Setting.Part ScriptSettings) := [
  .of "default_image" Setting.toText? fun v s => { s with defaultImage := v },
  .of "bash_command" Setting.toText? fun v s => { s with bashCommand := v },
  .of "python_command" Setting.toText? fun v s => { s with pythonCommand := v },
  .of "plain_command" Setting.toText? fun v s => { s with plainCommand := v },
  .of "runner_path" Setting.toText? fun v s => { s with runnerPath := v },
  .of "heredoc_delimiter" Setting.toText? fun v s => { s with heredocDelimiter := v },
  .of "pre_run" Setting.toText? fun v s => { s with preRun := v },
  .of "post_run" Setting.toText? fun v s => { s with postRun := v },
  .of "always_wrap" Setting.toBool? fun v s => { s with alwaysWrap := v }]

/-- The part of a `RenderFormat`, which has no other. -/
def RenderFormat.parts : List (Setting.Part RenderFormat) :=
  [.of "format" Setting.toFormat? fun v _ => v]

/-- The parts of `Settings`, each a record of its own with its own defaults. -/
def Settings.parts : List (Setting.Part Settings) := [
  .of "script" (Setting.toRecord? ScriptSettings.parts {}) fun v s => { s with script := v },
  .of "render" (Setting.toRecord? RenderFormat.parts .yaml) fun v s => { s with format := v }]

/-- The settings of a `tree`, with defaults for what it does not say. -/
def Settings.ofTree? (tree : Setting) : Option Settings :=
  Setting.toRecord? Settings.parts {} tree

end WorkflowTemplates
