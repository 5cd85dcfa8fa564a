import WorkflowTemplates.Proofs.Json.RoundTrip
import WorkflowTemplates.Proofs.Settings.Toml
import WorkflowTemplates.Proofs.Settings.Tree
import WorkflowTemplates.Proofs.Settings.Variable

/-!
# Which source a text of the settings comes from

The settings of scripts that are texts (`TextSetting`) are independent of each other: each comes
from its variable if it is set, else from the file if it says something about it, else it is the
default (`Settings.load_texts`). The layers are one source after the other, so a field of the tree
is what the last layer says about it (`field_layered`), and a tree whose fields can be read is read
field by field (`ofTree?_eq_some`). What a file says is known for each of the two formats, from the
compact text of a JSON object (`FileLayer.of_compact`) and from a TOML document of records
(`FileLayer.of_records`).
-/

namespace WorkflowTemplates

open Setting (field given allGiven FitsRecord readPath overlay ofEntries? toText? toBool?
  toFormat?)

/-! ## The settings that are texts -/

/-- The settings of scripts that are texts, one for each field of `ScriptSettings` but `alwaysWrap`,
which is a truth value. -/
inductive TextSetting
  | defaultImage
  | bashCommand
  | pythonCommand
  | plainCommand
  | runnerPath
  | heredocDelimiter
  | preRun
  | postRun
  deriving DecidableEq

namespace TextSetting

/-- The name of a setting in the table `script` of a file. -/
def name : TextSetting → String
  | defaultImage => "default_image"
  | bashCommand => "bash_command"
  | pythonCommand => "python_command"
  | plainCommand => "plain_command"
  | runnerPath => "runner_path"
  | heredocDelimiter => "heredoc_delimiter"
  | preRun => "pre_run"
  | postRun => "post_run"

/-- The name of the variable of a setting: the prefix of all variables of settings, the record, and
behind the separator of paths the name of the field. -/
def variableName : TextSetting → String
  | defaultImage => "ARGO_DSL_SCRIPT__DEFAULT_IMAGE"
  | bashCommand => "ARGO_DSL_SCRIPT__BASH_COMMAND"
  | pythonCommand => "ARGO_DSL_SCRIPT__PYTHON_COMMAND"
  | plainCommand => "ARGO_DSL_SCRIPT__PLAIN_COMMAND"
  | runnerPath => "ARGO_DSL_SCRIPT__RUNNER_PATH"
  | heredocDelimiter => "ARGO_DSL_SCRIPT__HEREDOC_DELIMITER"
  | preRun => "ARGO_DSL_SCRIPT__PRE_RUN"
  | postRun => "ARGO_DSL_SCRIPT__POST_RUN"

/-- The text of a setting in the settings of scripts. -/
def get : TextSetting → ScriptSettings → String
  | defaultImage => ScriptSettings.defaultImage
  | bashCommand => ScriptSettings.bashCommand
  | pythonCommand => ScriptSettings.pythonCommand
  | plainCommand => ScriptSettings.plainCommand
  | runnerPath => ScriptSettings.runnerPath
  | heredocDelimiter => ScriptSettings.heredocDelimiter
  | preRun => ScriptSettings.preRun
  | postRun => ScriptSettings.postRun

/-- No two settings have the same name in files, so what an entry says about one says nothing about
another. -/
theorem name_injective {f g : TextSetting} (h : f.name = g.name) : f = g := by
  cases f <;> cases g <;> first | rfl | exact absurd h (by decide)

theorem name_ne_alwaysWrap (f : TextSetting) : f.name ≠ "always_wrap" := by
  cases f <;> decide

/-- The path of a variable (`variablePath?`) leads to the setting: to the field of its name in the
record `script`. -/
theorem readPath_variable (f : TextSetting) :
    ∃ path, Settings.variablePath? f.variableName = some path ∧
      readPath path = (.name "script", [.name f.name]) := by
  cases f <;> exact ⟨_, rfl, rfl⟩

/-- No two settings have the same variable, because the paths of their variables differ. -/
theorem variable_injective {f g : TextSetting} (h : f.variableName = g.variableName) : f = g := by
  obtain ⟨path, hpath, hf⟩ := f.readPath_variable
  obtain ⟨path', hpath', hg⟩ := g.readPath_variable
  rw [h, hpath'] at hpath
  cases hpath
  rw [hg] at hf
  injection hf with _ hsteps
  injection hsteps with hstep
  injection hstep with hname
  exact name_injective hname.symm

end TextSetting

/-! ## Fields that fit -/

/-- A field of the settings of scripts can be read: as a text (`toText?`) if it is a `TextSetting`,
as a truth value if it is `always_wrap`. Other names are ignored. -/
structure ScriptSettings.FieldFits (name : String) (value : Setting) : Prop where
  text (f : TextSetting) (h : name = f.name) : (toText? value).isSome
  alwaysWrap (h : name = "always_wrap") : (toBool? value).isSome

/-- The format of rendered documents is the name of one (`formatNamed?`); other names of fields are
ignored. -/
def RenderFormat.FieldFits (name : String) (value : Setting) : Prop :=
  name = "format" → ∃ word, value = .text word ∧ (Setting.formatNamed? word).isSome

/-- What a reader that reads no table reads is no table (`IsTable`). The readers of settings meet
the hypothesis by definition. -/
theorem not_isTable_of_read {α : Type} {read : Setting → Option α} {v : Setting}
    (hread : ∀ entries, read (.table entries) = none) (h : (read v).isSome) : ¬ v.IsTable := by
  cases v with
  | table entries =>
    rw [hread] at h
    cases h
  | _ => exact id

/-- No table fits as a text, so an entry cannot merge into the field of one (`IsTable`). -/
theorem ScriptSettings.FieldFits.text_not_isTable {f : TextSetting} {v : Setting}
    (h : FieldFits f.name v) : ¬ v.IsTable :=
  not_isTable_of_read (fun _ => rfl) (h.text f rfl)

/-- No table fits as a truth value, so an entry cannot merge into `always_wrap`. -/
theorem ScriptSettings.FieldFits.alwaysWrap_not_isTable {v : Setting}
    (h : FieldFits "always_wrap" v) : ¬ v.IsTable :=
  not_isTable_of_read (fun _ => rfl) (h.alwaysWrap rfl)

/-- No table fits as a format, so an entry cannot merge into `format`. -/
theorem RenderFormat.FieldFits.not_isTable {v : Setting} (h : FieldFits "format" v) :
    ¬ v.IsTable := by
  obtain ⟨word, rfl, -⟩ := h rfl
  exact id

/-- A format that fits can be read by `toFormat?`. -/
theorem RenderFormat.FieldFits.isSome {v : Setting} (h : FieldFits "format" v) :
    (toFormat? v).isSome := by
  obtain ⟨word, rfl, hword⟩ := h rfl
  exact hword

namespace Settings

/-- An entry of a source gives both records only fields that can be read, whether it is a table
under the name of the record or a path into it (`FitsRecord`). -/
structure Fits (entry : String × Setting) : Prop where
  script : FitsRecord "script" ScriptSettings.FieldFits (readPath entry.1) entry.2
  render : FitsRecord "render" RenderFormat.FieldFits (readPath entry.1) entry.2

/-! ## Reading a tree -/

section
variable {entries : List (String × Setting)} {tree : Setting}

/-- A part that can be read is read: `ofEntries?` goes on with the parts behind it and stores what
was read by `put`. -/
theorem ofEntries?_of {ρ α : Type} {name : String} {read : Setting → Option α} {x : α}
    (h : (entries.lookup name).bind read = some x) (put : α → ρ → ρ)
    (parts : List (Setting.Part ρ)) (r : ρ) :
    ofEntries? entries (.of name read put :: parts) r = ofEntries? entries parts (put x r) := by
  obtain ⟨v, hv, hx⟩ := Option.bind_eq_some_iff.1 h
  simp only [ofEntries?, Setting.Part.of, hv, hx, Option.map_some, Option.bind_some]

/-- The settings of scripts are read from a table with all of them: each text is what `toText?`
makes of the entry under its name. -/
theorem ofEntries?_script {texts : TextSetting → String} {wrap : Bool}
    (htexts : ∀ f : TextSetting, (entries.lookup f.name).bind toText? = some (texts f))
    (hwrap : (entries.lookup "always_wrap").bind toBool? = some wrap) :
    ∃ s, ofEntries? entries ScriptSettings.parts {} = some s ∧
      ∀ f : TextSetting, f.get s = texts f := by
  refine ⟨⟨texts .defaultImage, texts .bashCommand, texts .pythonCommand, texts .plainCommand,
    texts .runnerPath, texts .heredocDelimiter, texts .preRun, texts .postRun, wrap⟩, ?_, ?_⟩
  · refine (ofEntries?_of (htexts .defaultImage) _ _ _).trans ?_
    refine (ofEntries?_of (htexts .bashCommand) _ _ _).trans ?_
    refine (ofEntries?_of (htexts .pythonCommand) _ _ _).trans ?_
    refine (ofEntries?_of (htexts .plainCommand) _ _ _).trans ?_
    refine (ofEntries?_of (htexts .runnerPath) _ _ _).trans ?_
    refine (ofEntries?_of (htexts .heredocDelimiter) _ _ _).trans ?_
    refine (ofEntries?_of (htexts .preRun) _ _ _).trans ?_
    refine (ofEntries?_of (htexts .postRun) _ _ _).trans ?_
    exact ofEntries?_of hwrap _ _ _
  · intro f
    cases f <;> rfl

/-- Settings are read from a tree in which every field is there and can be read, and each
`TextSetting` is the text of its own field. -/
theorem ofTree?_eq_some
    (htexts : ∀ f : TextSetting, ((field "script" f.name tree).bind toText?).isSome)
    (hwrap : ((field "script" "always_wrap" tree).bind toBool?).isSome)
    (hformat : ((field "render" "format" tree).bind toFormat?).isSome) :
    ∃ s, ofTree? tree = some s ∧
      ∀ f : TextSetting, (field "script" f.name tree).bind toText? = some (f.get s.script) := by
  -- A field that can be read is there, so its record is a table and the tree is one.
  have htables {record name : String} {α : Type} {read : Setting → Option α}
      (h : ((field record name tree).bind read).isSome) :
      ∃ entries, tree = .table entries ∧
        ∃ fields, entries.lookup record = some (.table fields) := by
    obtain ⟨x, hx⟩ := Option.isSome_iff_exists.1 h
    obtain ⟨v, hv, -⟩ := Option.bind_eq_some_iff.1 hx
    obtain ⟨entries, htree, fields, hfields, -⟩ := Setting.exists_tables_of_field hv
    exact ⟨entries, htree, fields, hfields⟩
  obtain ⟨entries, rfl, fields, hfields⟩ := htables hwrap
  obtain ⟨_, ⟨⟩, formats, hformats⟩ := htables hformat
  have hscript (name : String) : field "script" name (.table entries) = fields.lookup name := by
    rw [field, Setting.entries, hfields]
    rfl
  have hrender (name : String) : field "render" name (.table entries) = formats.lookup name := by
    rw [field, Setting.entries, hformats]
    rfl
  simp only [hscript] at htexts hwrap ⊢
  rw [hrender] at hformat
  obtain ⟨wrap, hwrap⟩ := Option.isSome_iff_exists.1 hwrap
  obtain ⟨format, hformat⟩ := Option.isSome_iff_exists.1 hformat
  obtain ⟨script, hread, hget⟩ :=
    ofEntries?_script (fun f => (Option.some_get (htexts f)).symm) hwrap
  have hrecord : (entries.lookup "script").bind (Setting.toRecord? ScriptSettings.parts {})
      = some script := by
    rw [hfields]
    exact hread
  have hrecord' : (entries.lookup "render").bind (Setting.toRecord? RenderFormat.parts .yaml)
      = some format := by
    rw [hformats]
    exact ofEntries?_of hformat _ _ _
  refine ⟨⟨script, format⟩, ?_, fun f => ?_⟩
  · rw [ofTree?, Setting.toRecord?, Settings.parts, ofEntries?_of hrecord, ofEntries?_of hrecord']
    rfl
  · rw [hget, Option.some_get]

end

/-! ## Layers -/

/-- The tree of the defaults has every field, with the default of `ScriptSettings`. -/
theorem field_default (f : TextSetting) :
    (field "script" f.name (overlay (.table []) defaultLayer)).bind toText? = some (f.get {}) := by
  cases f <;> decide +kernel

section
variable {record name : String} {lower upper : List (String × Setting)}
  {FieldFits : String → Setting → Prop}

/-- What the highest layer says about a field that says something about it: the last value of
`upper`, else the last of `lower`, else what `defaultLayer` says. -/
theorem field_layered (hlower : ∀ e ∈ lower, FitsRecord record FieldFits (readPath e.1) e.2)
    (hupper : ∀ e ∈ upper, FitsRecord record FieldFits (readPath e.1) e.2)
    (hname : ∀ v, FieldFits name v → ¬ v.IsTable) :
    field record name (layered [defaultLayer, lower, upper])
      = (lastUnder name (allGiven record upper)).or
          ((lastUnder name (allGiven record lower)).or
            (field record name (overlay (.table []) defaultLayer))) := by
  rw [← Setting.field_overlay hlower hname, ← Setting.field_overlay hupper hname]
  rfl

/-- A field can be read by `read` if both layers fit and the default can be read, whichever of the
three it comes from. -/
theorem isSome_field_layered {α : Type} {read : Setting → Option α}
    (hlower : ∀ e ∈ lower, FitsRecord record FieldFits (readPath e.1) e.2)
    (hupper : ∀ e ∈ upper, FitsRecord record FieldFits (readPath e.1) e.2)
    (hname : ∀ v, FieldFits name v → ¬ v.IsTable)
    (hread : ∀ v, FieldFits name v → (read v).isSome)
    (hdefault : ((field record name (overlay (.table []) defaultLayer)).bind read).isSome) :
    ((field record name (layered [defaultLayer, lower, upper])).bind read).isSome := by
  rw [field_layered hlower hupper hname]
  cases hvariable : lastUnder name (allGiven record upper) with
  | some v => exact hread v (Setting.fits_of_lastUnder hupper hvariable)
  | none =>
    cases hfile : lastUnder name (allGiven record lower) with
    | some v => exact hread v (Setting.fits_of_lastUnder hlower hfile)
    | none => exact hdefault

/-- Layers that fit are read: each text is what the highest layer says that says something about it,
and there is always one, the defaults. -/
theorem ofTree?_layered (hlower : ∀ e ∈ lower, Fits e) (hupper : ∀ e ∈ upper, Fits e) :
    ∃ s, ofTree? (layered [defaultLayer, lower, upper]) = some s ∧
      ∀ f : TextSetting,
        ((lastUnder f.name (allGiven "script" upper)).or
          ((lastUnder f.name (allGiven "script" lower)).or
            (field "script" f.name (overlay (.table []) defaultLayer)))).bind toText?
          = some (f.get s.script) := by
  have hscript : ∀ e ∈ lower, FitsRecord "script" ScriptSettings.FieldFits (readPath e.1) e.2 :=
    fun e he => (hlower e he).script
  have hscript' :
      ∀ e ∈ upper, FitsRecord "script" ScriptSettings.FieldFits (readPath e.1) e.2 :=
    fun e he => (hupper e he).script
  have htext (f : TextSetting) (v : Setting) (h : ScriptSettings.FieldFits f.name v) :
      ¬ v.IsTable := h.text_not_isTable
  have htexts (f : TextSetting) :
      ((field "script" f.name (layered [defaultLayer, lower, upper])).bind toText?).isSome :=
    isSome_field_layered hscript hscript' (htext f) (fun v h => h.text f rfl)
      (by rw [field_default]; rfl)
  have hwrap := isSome_field_layered hscript hscript' (fun v h => h.alwaysWrap_not_isTable)
    (fun v h => h.alwaysWrap rfl) (by decide +kernel)
  have hformat := isSome_field_layered (fun e he => (hlower e he).render)
    (fun e he => (hupper e he).render) (fun v h => h.not_isTable) (fun v h => h.isSome)
    (by decide +kernel)
  obtain ⟨s, hs, hget⟩ := ofTree?_eq_some htexts hwrap hformat
  refine ⟨s, hs, fun f => ?_⟩
  rw [← field_layered hscript hscript' (htext f)]
  exact hget f

end

/-! ## Variables -/

section
variable {environment : List (String × String)}

/-- The only variables of the settings are those of texts; a name at which no path starts
(`variablePath?`) belongs to another program. -/
def OnlyTexts (environment : List (String × String)) : Prop :=
  ∀ e ∈ environment, (∃ f : TextSetting, e.1 = f.variableName) ∨ variablePath? e.1 = none

/-- Variables of texts can be read: what `variableSetting` makes of a text is no table, and can be
written as a text again. -/
theorem fits_variableLayer (h : OnlyTexts environment) :
    ∀ e ∈ variableLayer environment, Fits e := by
  intro e he
  obtain ⟨⟨name, text⟩, hmem, hentry⟩ := List.mem_filterMap.1 he
  obtain ⟨path, hpath, rfl⟩ := Option.map_eq_some_iff.1 hentry
  obtain ⟨f, rfl⟩ | hnone := h _ hmem
  · obtain ⟨_, hpath', hread⟩ := f.readPath_variable
    rw [hpath] at hpath'
    cases hpath'
    obtain ⟨s, hs, -⟩ := exists_arrives text
    constructor
    · rw [hread]
      refine .field ⟨fun _ _ => Option.isSome_iff_exists.2 ⟨s, hs⟩, fun hwrap => ?_⟩
      exact absurd hwrap f.name_ne_alwaysWrap
    · rw [hread]
      exact .elsewhere (by decide)
  · rw [hnone] at hpath
    cases hpath

/-- What the variables say about a text is the text of its variable, the last one if it is set twice
(`OnlyTexts`). -/
theorem lastUnder_variableLayer (h : OnlyTexts environment) (f : TextSetting) :
    lastUnder f.name (allGiven "script" (variableLayer environment))
      = (lastUnder f.variableName environment).map variableSetting := by
  induction environment with
  | nil => rfl
  | cons e environment ih =>
    obtain ⟨name, text⟩ := e
    have hrest := ih fun e he => h e (List.mem_cons_of_mem _ he)
    rw [lastUnder_cons]
    obtain ⟨g, rfl⟩ | hnone := h _ List.mem_cons_self
    · obtain ⟨path, hpath, hread⟩ := g.readPath_variable
      have hlayer : allGiven "script" (variableLayer ((g.variableName, text) :: environment))
          = (g.name, variableSetting text) :: allGiven "script" (variableLayer environment) := by
        simp [variableLayer, allGiven, hpath, hread, given]
      rw [hlayer, lastUnder_cons, hrest]
      by_cases hg : f = g
      · subst hg
        rw [if_pos rfl, if_pos rfl]
        cases lastUnder f.variableName environment <;> rfl
      · rw [if_neg fun hname => hg (TextSetting.name_injective hname),
          if_neg fun hname => hg (TextSetting.variable_injective hname), Option.or_none,
          Option.or_none]
    · have hne : f.variableName ≠ name := by
        rintro rfl
        obtain ⟨path, hpath, -⟩ := f.readPath_variable
        rw [hnone] at hpath
        cases hpath
      have hlayer : variableLayer ((name, text) :: environment) = variableLayer environment := by
        simp [variableLayer, hnone]
      rw [hlayer, hrest, if_neg hne, Option.or_none]

end

/-! ## Loading -/

/-- The layer of a file, if there is one: the empty layer without a file, and what `fileLayer?`
reads from the text of the file in its format. -/
inductive FileLayer : Option (SettingsFormat × String) → List (String × Setting) → Prop
  | none : FileLayer none []
  | some {format : SettingsFormat} {text : String} {layer : List (String × Setting)}
      (h : fileLayer? format text = some layer) : FileLayer (some (format, text)) layer

/-- The compact text of a JSON object is a file with the members of the object, if the object reads
back (`Ordered`, `NumbersReadBack`, and not too deep). -/
theorem FileLayer.of_compact {members : List (String × Json)}
    (ordered : (Json.object members).Ordered) (numbers : (Json.object members).NumbersReadBack)
    (shallow : (Json.object members).depth ≤ Json.maxDepth) :
    FileLayer (Option.some (.json, (Json.object members).compact))
      (Setting.ofMembers members) := by
  refine .some ?_
  rw [fileLayer?, jsonLayer?, Json.compact, String.toList_ofList,
    Json.read_text ordered numbers shallow]

/-- The TOML document of records (`Toml.documentText`) is a file with a table of texts for each
record. -/
theorem FileLayer.of_records {records : List Toml.Record} (h : Toml.Writable records) :
    FileLayer (Option.some (.toml, String.ofList (Toml.documentText records)))
      (records.map Toml.recordSetting) := by
  refine .some ?_
  rw [fileLayer?, String.toList_ofList, Toml.read_documentText h]

/-- Settings are loaded if the tree of the layers can be read: the defaults, below the layer of the
file, below the variables (`FileLayer`). -/
theorem load_eq_ok {file : Option (SettingsFormat × String)} {layer : List (String × Setting)}
    {environment : List (String × String)} {s : Settings} (hfile : FileLayer file layer)
    (h : ofTree? (layered [defaultLayer, layer, variableLayer environment]) = some s) :
    load file environment = .ok s := by
  unfold load
  cases hfile with
  | none =>
    dsimp only
    rw [h]
  | some hlayer =>
    dsimp only
    rw [hlayer]
    dsimp only
    rw [h]

/-- Settings are loaded from a file that can be read, or none, and from variables of texts. Each of
their texts is what the text of its variable arrives as (`Arrives`), if that is set, else what the
file says, a string as it stands, if it says something, else the default, whatever the others are.
-/
theorem load_texts {file : Option (SettingsFormat × String)} {layer : List (String × Setting)}
    {environment : List (String × String)} (hfile : FileLayer file layer)
    (hfits : ∀ e ∈ layer, Fits e) (hvariables : OnlyTexts environment) :
    ∃ s, load file environment = .ok s ∧
      ∀ f : TextSetting,
        match lastUnder f.variableName environment, lastUnder f.name (allGiven "script" layer) with
        | some text, _ => Arrives text (f.get s.script)
        | none, some v => toText? v = some (f.get s.script)
        | none, none => f.get s.script = f.get {} := by
  obtain ⟨s, hs, hget⟩ := ofTree?_layered hfits (fits_variableLayer hvariables)
  refine ⟨s, load_eq_ok hfile hs, fun f => ?_⟩
  have hf := hget f
  rw [lastUnder_variableLayer hvariables] at hf
  cases hvariable : lastUnder f.variableName environment with
  | some text =>
    rw [hvariable] at hf
    exact arrives_iff.2 hf
  | none =>
    rw [hvariable] at hf
    cases hfield : lastUnder f.name (allGiven "script" layer) with
    | some v =>
      rw [hfield] at hf
      exact hf
    | none =>
      rw [hfield] at hf
      exact (Option.some.inj ((field_default f).symm.trans hf)).symm

/-- A file in JSON or in TOML sets one text and a variable another one; a third text has its
default. -/
theorem path_loaded_with_file :
    let members := [("script", Json.object [("pre_run", .string "echo start")])]
    let environment := [("PATH", "/bin"), (TextSetting.runnerPath.variableName, "/tmp/run")]
    let Loaded (file : SettingsFormat × String) := ∃ s, load (some file) environment = .ok s ∧
      s.script.preRun = "echo start" ∧ s.script.runnerPath = "/tmp/run" ∧ s.script.postRun = ""
    Loaded (.json, (Json.object members).compact) ∧
      Loaded (.toml, "[script]\npre_run = 'echo start'\n") := by
  intro members environment Loaded
  have hscript : Setting.lowerName "script" = "script" := by decide
  have hpreRun : Setting.lowerName "pre_run" = "pre_run" := by decide
  have hpath : readPath "script" = (.name "script", []) := by decide +kernel
  let layer := [("script", Setting.table [("pre_run", .text "echo start")])]
  have hfits : ∀ e ∈ layer, Fits e := by
    rw [List.forall_mem_singleton]
    constructor
    · rw [hpath]
      refine .table ?_
      rw [List.forall_mem_singleton]
      exact ⟨fun _ _ => rfl, fun h => absurd h (by decide)⟩
    · rw [hpath]
      exact .elsewhere (by decide)
  have hvariables : OnlyTexts environment :=
    List.forall_mem_cons.2 ⟨.inr (by decide +kernel),
      List.forall_mem_singleton.2 (.inl ⟨.runnerPath, rfl⟩)⟩
  have hgiven : allGiven "script" layer = [("pre_run", .text "echo start")] := by
    simp only [layer, allGiven, List.flatMap_cons, List.flatMap_nil, hpath]
    rfl
  have hunchanged : Arrives "/tmp/run" "/tmp/run" := arrives_unchanged (c := '/') (by decide) rfl
  -- Both files have the same layer, and nothing behind it depends on the format.
  have hloaded {file : SettingsFormat × String} (hfile : FileLayer (some file) layer) :
      Loaded file := by
    obtain ⟨s, hs, htexts⟩ := load_texts hfile hfits hvariables
    rw [hgiven] at htexts
    have hrunner : Arrives "/tmp/run" s.script.runnerPath := htexts .runnerPath
    refine ⟨s, hs, (Option.some.inj (htexts .preRun)).symm, ?_, htexts .postRun⟩
    exact Option.some.inj ((arrives_iff.1 hrunner).symm.trans (arrives_iff.1 hunchanged))
  constructor
  · have hlayer : Setting.ofMembers members = layer := by
      simp only [members, layer, Setting.ofMembers, Setting.ofJson, hscript, hpreRun]
    refine hloaded (hlayer ▸ .of_compact ?_ ?_ ?_)
    · simp [members, Json.Ordered, Json.OrderedMembers]
    · simp [members, Json.NumbersReadBack, Json.NumbersReadBackMembers]
    · decide
  · let records : List Toml.Record := [("script", [("pre_run", "echo start")])]
    have hlayer : records.map Toml.recordSetting = layer := by
      simp only [records, layer, List.map_cons, List.map_nil, Toml.recordSetting, hscript, hpreRun]
    have hwritable : Toml.Writable records := by
      constructor <;> simp only [records, List.mem_singleton, forall_eq]
      · decide
      · exact ⟨by decide, List.all_eq_true.1 rfl⟩
      · decide
      · exact ⟨by decide, List.all_eq_true.1 rfl⟩
      · exact List.forall_iff_forall_mem.1 (by decide)
    exact hloaded (hlayer ▸ .of_records hwritable)

/-- A delimiter of digits loses its leading zeros on the way: the text of a variable is read as an
integer if it is one (`Arrives.integer`). -/
theorem delimiter_loses_zeros :
    ∃ s, load none [(TextSetting.heredocDelimiter.variableName, "007")] = .ok s ∧
      s.script.heredocDelimiter = "7" ∧ s.script.heredocDelimiter ≠ "007" := by
  have hload : (load none [(TextSetting.heredocDelimiter.variableName, "007")]).toOption.map
      (·.script.heredocDelimiter) = some "7" := by decide +kernel
  obtain ⟨s, hs, hdelimiter⟩ := exists_ok_of_map hload
  exact ⟨s, hs, hdelimiter, by rw [hdelimiter]; decide⟩

end Settings

end WorkflowTemplates
