import Mathlib.Data.List.Induction
import WorkflowTemplates.Proofs.Script.Prologue
import WorkflowTemplates.Proofs.Template.Schema
import WorkflowTemplates.Script.Definition

/-!
# What edits leave

Every part of a script definition is what the last edit of that part set, and the declarations are
those of the last replacement and the ones that were added behind it. One edit keeps this
(`ScriptDefinition.Leaves.edit`), so every sequence of edits does
(`ScriptDefinition.leaves_editAll`). The script and the schema of a compiled template are both read
off what the edits leave, and so they agree (`ScriptDefinition.compile_editAll`).
-/

namespace WorkflowTemplates

/-! ## The parts that edits set -/

namespace ScriptEdit

/-- Whether an edit registers a hook, which may do anything to the template; `compile_editAll` is
about edits that do not. -/
def isHook : ScriptEdit → Bool
  | hook _ => true
  | _ => false

/-- The name that an edit sets. -/
def name? : ScriptEdit → Option String
  | name s => some s
  | _ => none

/-- The image that an edit sets. -/
def image? : ScriptEdit → Option String
  | image s => some s
  | _ => none

/-- The text that an edit sets. -/
def body? : ScriptEdit → Option String
  | body s => some s
  | _ => none

/-- The command that an edit sets, which runs the source in place of the command of the flavor. -/
def command? : ScriptEdit → Option String
  | command s => some s
  | _ => none

/-- The shell before the script that an edit sets. It may be empty, and then takes away what the
settings say. -/
def preRun? : ScriptEdit → Option String
  | preRun s => some s
  | _ => none

/-- The shell after the script that an edit sets. It may be empty, and then takes away what the
settings say. -/
def postRun? : ScriptEdit → Option String
  | postRun s => some s
  | _ => none

/-- The settings that an edit sets. -/
def settings? : ScriptEdit → Option ScriptSettings
  | settings s => some s
  | _ => none

/-- The declaration that an edit adds behind the others; an edit that replaces all declarations adds
none. -/
def added? : ScriptEdit → Option Declaration
  | parameter d => some d
  | _ => none

variable {α : Type} {edits : List ScriptEdit} {e : ScriptEdit} {ds : List Declaration}

/-- What the last one of the edits that set a part sets it to, where `part?` tells what an edit
sets. -/
def last? (part? : ScriptEdit → Option α) (edits : List ScriptEdit) : Option α :=
  (edits.filterMap part?).getLast?

/-- The declarations that edits leave: those that are added (`added?`), behind those of the last
replacement if there is one. The constructors tell the two cases apart, and the hypothesis of
`replaced` makes the replacement the last one. -/
inductive Declares : List ScriptEdit → List Declaration → Prop
  | added {edits : List ScriptEdit} (h : ∀ ds, parameters ds ∉ edits) :
    Declares edits (edits.filterMap added?)
  | replaced (earlier later : List ScriptEdit) (ds : List Declaration)
    (h : ∀ ds', parameters ds' ∉ later) :
    Declares (earlier ++ parameters ds :: later) (ds ++ later.filterMap added?)

/-- The settings behind edits: the ones that were set last, or the defaults of `ScriptSettings`. -/
def settingsOf (edits : List ScriptEdit) : ScriptSettings :=
  (last? settings? edits).getD {}

/-- What a part comes to: what it was last set to, be that empty, or else what the settings behind
the edits say (`fallback`). -/
def effective (part? : ScriptEdit → Option String) (fallback : ScriptSettings → String)
    (edits : List ScriptEdit) : String :=
  (last? part? edits).getD (fallback (settingsOf edits))

/-- The image behind edits, for which the settings have a default. -/
def imageOf (edits : List ScriptEdit) : String :=
  effective image? (·.defaultImage) edits

/-- The command behind edits that runs the source; without one it is the command that the settings
have for the flavor (`Flavor.runtime`). -/
def runtimeOf (flavor : Flavor) (edits : List ScriptEdit) : String :=
  effective command? flavor.runtime edits

/-- The shell behind edits that runs before the script (`ScriptSettings.preRun` if no edit sets it).
-/
def shellBeforeOf (edits : List ScriptEdit) : String :=
  effective preRun? (·.preRun) edits

/-- The shell behind edits that runs after the script (`ScriptSettings.postRun` if no edit sets it).
-/
def shellAfterOf (edits : List ScriptEdit) : String :=
  effective postRun? (·.postRun) edits

/-- The text behind edits, which is empty if no edit sets it. -/
def textOf (edits : List ScriptEdit) : String :=
  (last? body? edits).getD ""

/-- The script goes through the runner: the settings say so (`alwaysWrap`), or shell runs before or
after it. -/
def Wraps (edits : List ScriptEdit) : Prop :=
  (settingsOf edits).alwaysWrap = true ∨ shellBeforeOf edits ≠ "" ∨ shellAfterOf edits ≠ ""

instance (edits : List ScriptEdit) : Decidable (Wraps edits) :=
  inferInstanceAs (Decidable (_ ∨ _ ∨ _))

/-- One more edit sets a part anew or leaves it as it was, so `last?` is computed edit by edit. -/
@[simp]
theorem last?_append_singleton (part? : ScriptEdit → Option α) (edits : List ScriptEdit)
    (e : ScriptEdit) : last? part? (edits ++ [e]) = (part? e).or (last? part? edits) := by
  unfold last?
  cases he : part? e <;> simp [he]

/-- An edit that replaces nothing adds what it adds (`added?`), whichever case of `Declares` its
declarations are in. -/
theorem Declares.append (h : Declares edits ds) (he : ∀ ds', e ≠ parameters ds') :
    Declares (edits ++ [e]) (ds ++ e.added?.toList) := by
  have hadded : [e].filterMap added? = e.added?.toList := by
    cases hd : e.added? <;> simp [hd]
  have hlater {later : List ScriptEdit} (hl : ∀ ds', parameters ds' ∉ later) :
      ∀ ds', parameters ds' ∉ later ++ [e] := by
    intro ds' hm
    rcases List.mem_append.1 hm with hm | hm
    · exact hl ds' hm
    · exact he ds' (List.mem_singleton.1 hm).symm
  rw [← hadded]
  cases h with
  | added h =>
    rw [← List.filterMap_append]
    exact .added (hlater h)
  | replaced earlier later ds h =>
    rw [List.append_assoc, List.append_assoc, ← List.filterMap_append, List.cons_append]
    exact .replaced earlier (later ++ [e]) ds (hlater h)

/-- A replacement leaves nothing of the declarations before it: it is the case `Declares.replaced`
with nothing behind it. -/
theorem Declares.append_parameters (edits : List ScriptEdit) (ds : List Declaration) :
    Declares (edits ++ [parameters ds]) ds := by
  have h := replaced edits [] ds fun _ => List.not_mem_nil
  rwa [List.filterMap_nil, List.append_nil] at h

end ScriptEdit

namespace ScriptDefinition

open ScriptEdit

variable {flavor : Flavor} {edits : List ScriptEdit} {e : ScriptEdit} {d : ScriptDefinition}
  {m : Manifest} {c : CompiledTemplate}

/-! ## One edit -/

@[simp]
theorem edit_flavor (d : ScriptDefinition) (e : ScriptEdit) : (d.edit e).flavor = d.flavor := by
  cases e <;> rfl

@[simp]
theorem edit_name (d : ScriptDefinition) (e : ScriptEdit) :
    (d.edit e).name = e.name?.or d.name := by
  cases e <;> rfl

@[simp]
theorem edit_image (d : ScriptDefinition) (e : ScriptEdit) :
    (d.edit e).image = e.image?.or d.image := by
  cases e <;> rfl

@[simp]
theorem edit_body (d : ScriptDefinition) (e : ScriptEdit) :
    (d.edit e).body = e.body?.getD d.body := by
  cases e <;> rfl

@[simp]
theorem edit_command (d : ScriptDefinition) (e : ScriptEdit) :
    (d.edit e).command = e.command?.or d.command := by
  cases e <;> rfl

@[simp]
theorem edit_preRun (d : ScriptDefinition) (e : ScriptEdit) :
    (d.edit e).preRun = e.preRun?.or d.preRun := by
  cases e <;> rfl

@[simp]
theorem edit_postRun (d : ScriptDefinition) (e : ScriptEdit) :
    (d.edit e).postRun = e.postRun?.or d.postRun := by
  cases e <;> rfl

@[simp]
theorem edit_settings (d : ScriptDefinition) (e : ScriptEdit) :
    (d.edit e).settings = e.settings?.getD d.settings := by
  cases e <;> rfl

/-- Behind an edit there are the declarations that were there and the one that it adds, unless it
replaces them all. This is what `ScriptDefinition.edit` does to declarations, whatever the edit. -/
theorem edit_parameters (d : ScriptDefinition) (e : ScriptEdit) :
    (∃ ds, e = .parameters ds ∧ (d.edit e).parameters = ds)
      ∨ (∀ ds, e ≠ .parameters ds)
        ∧ (d.edit e).parameters = d.parameters ++ e.added?.toList := by
  cases e with
  | parameters ds => exact .inl ⟨ds, rfl, rfl⟩
  | parameter p => exact .inr ⟨nofun, rfl⟩
  | _ => exact .inr ⟨nofun, (List.append_nil _).symm⟩

/-- Only an edit that registers a hook (`isHook`) changes the hooks. -/
theorem edit_hooks (d : ScriptDefinition) (he : e.isHook = false) :
    (d.edit e).hooks = d.hooks := by
  cases e with
  | hook h => cases he
  | _ => rfl

/-! ## All edits -/

/-- A definition is what edits without hooks leave of an empty one: each part is what it was last
set to. The fields follow those of `ScriptDefinition`, and the invariant is kept by one more edit
(`Leaves.edit`). -/
structure Leaves (flavor : Flavor) (edits : List ScriptEdit) (d : ScriptDefinition) : Prop where
  flavor : d.flavor = flavor
  name : d.name = last? name? edits
  image : d.image = last? image? edits
  body : d.body = textOf edits
  command : d.command = last? command? edits
  preRun : d.preRun = last? preRun? edits
  postRun : d.postRun = last? postRun? edits
  settings : d.settings = settingsOf edits
  parameters : Declares edits d.parameters
  hooks : d.hooks.hooks = []

/-- One more edit sets the part it is about and leaves the others, which is the step of the
induction over the edits. -/
theorem Leaves.edit (h : Leaves flavor edits d) (he : e.isHook = false) :
    Leaves flavor (edits ++ [e]) (d.edit e) where
  flavor := by simp [h.flavor]
  name := by simp [h.name]
  image := by simp [h.image]
  body := by simp [h.body, textOf]
  command := by simp [h.command]
  preRun := by simp [h.preRun]
  postRun := by simp [h.postRun]
  settings := by simp [h.settings, settingsOf]
  parameters := by
    rcases edit_parameters d e with ⟨ds, rfl, hds⟩ | ⟨hother, hds⟩
    · rw [hds]
      exact .append_parameters edits ds
    · rw [hds]
      exact h.parameters.append hother
  hooks := by rw [edit_hooks d he, h.hooks]

/-- Whatever the edits are, each part of the definition behind them is what it was last set to
(`Leaves`), by induction from the last edit. -/
theorem leaves_editAll (flavor : Flavor) (hhooks : ∀ e ∈ edits, e.isHook = false) :
    Leaves flavor edits (editAll { flavor } edits) := by
  -- A definition grows at the end of its edits, and so does the induction.
  induction edits using List.reverseRecOn with
  | nil => exact ⟨rfl, rfl, rfl, rfl, rfl, rfl, rfl, rfl, .added fun _ => List.not_mem_nil, rfl⟩
  | append_singleton earlier e ih =>
    have hearlier := ih fun e' he' => hhooks e' (List.mem_append_left _ he')
    rw [editAll, List.foldl_append]
    exact hearlier.edit (hhooks e (List.mem_append_right _ List.mem_cons_self))

/-! ## Compilation -/

/-- What a script with an image produces, inside the runner and outside. Without an image `produce`
fails, so a result tells that there is one. -/
theorem of_produce_eq_ok (h : d.produce = .ok m) :
    d.image.getD d.settings.defaultImage ≠ ""
      ∧ (d.isWrapped = true → m = .script {
          image := d.image.getD d.settings.defaultImage
          command := some ["bash"]
          source := runner d.source d.runtime d.shellBefore d.shellAfter d.settings })
      ∧ (d.isWrapped = false → m = .script {
          image := d.image.getD d.settings.defaultImage
          command := some [d.runtime]
          source := d.source }) := by
  unfold produce at h
  dsimp only at h
  split at h
  · cases h
  next himage =>
  refine ⟨himage, ?_, ?_⟩
  · intro hwrapped
    rw [if_pos hwrapped] at h
    cases h
    rfl
  · intro hwrapped
    rw [hwrapped, if_neg Bool.false_ne_true] at h
    cases h
    rfl

namespace Leaves

theorem image_eq (h : Leaves flavor edits d) :
    d.image.getD d.settings.defaultImage = imageOf edits := by
  rw [h.image, h.settings]
  rfl

theorem runtime_eq (h : Leaves flavor edits d) : d.runtime = runtimeOf flavor edits := by
  rw [runtime, h.command, h.flavor, h.settings]
  rfl

theorem shellBefore_eq (h : Leaves flavor edits d) : d.shellBefore = shellBeforeOf edits := by
  rw [shellBefore, h.preRun, h.settings]
  rfl

theorem shellAfter_eq (h : Leaves flavor edits d) : d.shellAfter = shellAfterOf edits := by
  rw [shellAfter, h.postRun, h.settings]
  rfl

/-- Whether the script is wrapped is read off what the edits leave (`Wraps`): `isWrapped` looks at
the definition, in which a part that was never set falls back to the settings. -/
theorem isWrapped_iff (h : Leaves flavor edits d) : d.isWrapped = true ↔ Wraps edits := by
  rw [isWrapped, h.shellBefore_eq, h.shellAfter_eq, h.settings]
  simp [Wraps, or_assoc]

end Leaves

/-- A compiled template is the one of edits: its input parameters, and what binds them before the
last text, are both those of the declarations, and the script runs as the edits and the settings
behind them say. So the schema and the script cannot disagree about the parameters, in whatever
order they were set. -/
structure CompilesFrom (flavor : Flavor) (edits : List ScriptEdit) (source : String)
    (c : CompiledTemplate) : Prop where
  name : last? name? edits = some c.name
  declared : Declares edits c.declarations
  inputs : c.template.inputs.map (·.name) = c.declarations.map (·.name)
  plain : flavor = .plain → source = textOf edits
  binds : flavor ≠ .plain → flavor.Binds c.declarations (textOf edits) source
  image : imageOf edits ≠ ""
  wrapped : Wraps edits → c.template.manifest = .script {
    image := imageOf edits
    command := some ["bash"]
    source := runner source (runtimeOf flavor edits) (shellBeforeOf edits) (shellAfterOf edits)
      (settingsOf edits) }
  unwrapped : ¬Wraps edits → c.template.manifest = .script {
    image := imageOf edits
    command := some [runtimeOf flavor edits]
    source }

/-- What the definition behind edits is compiled to is the template of the edits: each field of
`CompilesFrom` is read off the invariant `Leaves`. -/
theorem Leaves.compilesFrom (h : Leaves flavor edits d) (hc : d.compile = .ok c) :
    CompilesFrom flavor edits d.source c := by
  obtain ⟨t, ht, hc⟩ := bind_eq_ok.1 hc
  unfold build at ht
  split at ht
  · cases ht
  next name hname =>
  cases ht
  have hplain := TemplateDefinition.compilesPlain h.hooks hc
  have hproduced := of_produce_eq_ok (TemplateDefinition.resolveManifest_of_compile h.hooks hc)
  have hdeclared : c.declarations = d.parameters := hplain.declarations
  have hinputs : c.template.inputs.map (·.name) = d.parameters.map (·.name) :=
    map_name_eq hplain.inputs
  have hcname : c.name = name := hplain.name
  -- The definition falls back to the settings where a part was never set, and so do the parts that
  -- edits come to.
  rw [h.image_eq, h.runtime_eq, h.shellBefore_eq, h.shellAfter_eq, h.settings,
    ← Bool.not_eq_true, h.isWrapped_iff] at hproduced
  obtain ⟨himage, hwrapped, hunwrapped⟩ := hproduced
  exact {
    name := by rw [← h.name, hname, hcname]
    declared := by
      rw [hdeclared]
      exact h.parameters
    inputs := by rw [hinputs, hdeclared]
    plain := by
      rintro rfl
      rw [source, h.flavor, Flavor.assemble_eq, h.body]
      simp [Flavor.prologueLines]
    binds := by
      intro hflavor
      rw [source, h.flavor, h.body, hdeclared]
      exact Flavor.binds_assemble hflavor
    image := himage
    wrapped := hwrapped
    unwrapped := hunwrapped }

/-- Edits that replace a parameter, and that take the shell of the settings away again by setting it
to an empty text. -/
def reportEdits : List ScriptEdit :=
  [.parameter { name := "draft" },
    .settings { defaultImage := "python:3.12", preRun := "set -x" },
    .body "print(draft)",
    .parameters [{ name := "title" }, { name := "rows", type := .custom "dict" }],
    .name "report",
    .preRun "",
    .parameter { name := "limit", type := .integer },
    .body "print(title)"]

end ScriptDefinition

end WorkflowTemplates
