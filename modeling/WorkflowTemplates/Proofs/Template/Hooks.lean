import WorkflowTemplates.Proofs.Script.Edits
import WorkflowTemplates.Proofs.Template.Phases

/-!
# Hooks run in the order of their registration

Chains of hooks grow by single hooks and by other chains (`HookChain.Assembly`), script definitions
by edits that register hooks, and the templates they are built into by further hooks and chains
(`Registration`). None of these steps drops a hook or moves it in front of another one
(`HookChain.Assembly.hooks_chain`, `ScriptDefinition.hooks_editAll`,
`TemplateDefinition.registerAll_eq`), so a compilation hands the template that is put together to
all hooks in the order of their registration (`hooks_run_in_order`). Of stock hooks only the last
one of a kind shows in the result (`StockHook.changeAll_eq`).
-/

namespace WorkflowTemplates

variable {α : Type}

/-! ## Chains -/

/-- What hooks make of a template, one after the other, the first one of the list first. -/
def Hook.composed : List Hook → Hook
  | [] => id
  | h :: rest => composed rest ∘ h

/-- A chain runs its hooks one after the other (`Hook.composed`). -/
theorem HookChain.apply_eq_composed (c : HookChain) : c.apply = Hook.composed c.hooks := by
  funext t
  unfold apply
  generalize c.hooks = hooks
  induction hooks generalizing t with
  | nil => rfl
  | cons h rest ih => exact ih (h t)

/-- How a chain is put together, from what stands for its hooks (`α`): a hook is added at its end,
be it in place or to a new chain, or the hooks of another chain that is put together so. -/
inductive HookChain.Assembly (α : Type)
  | empty
  | push (a : Assembly α) (h : α)
  | extend (a b : Assembly α)

namespace HookChain.Assembly

/-- What was added, in the order in which it was, from one chain or from several. -/
def registered : Assembly α → List α
  | empty => []
  | push a h => a.registered ++ [h]
  | extend a b => a.registered ++ b.registered

/-- The chain that is put together, where `hook` says which hook stands for what. -/
def chain (hook : α → Hook) : Assembly α → HookChain
  | empty => {}
  | push a h => (a.chain hook).push (hook h)
  | extend a b => (a.chain hook).extend (b.chain hook)

/-- A chain has the hooks that were added (`registered`), in the order in which they were. -/
theorem hooks_chain (hook : α → Hook) (a : Assembly α) :
    (a.chain hook).hooks = a.registered.map hook := by
  induction a with
  | empty => rfl
  | push a h ih => rw [chain, HookChain.push, ih, registered, List.map_append, List.map_singleton]
  | extend a b iha ihb => rw [chain, HookChain.extend, iha, ihb, registered, List.map_append]

end HookChain.Assembly

/-! ## Definitions -/

/-- A step that adds hooks to a definition: a single one, or those of a chain. -/
inductive Registration
  | hook (h : Hook)
  | chain (a : HookChain.Assembly Hook)

/-- The hooks of a step, in the order in which it adds them. -/
def Registration.hooks : Registration → List Hook
  | hook h => [h]
  | chain a => a.registered

/-- The hook that an edit of a script registers; other edits register none. -/
def ScriptEdit.hook? : ScriptEdit → Option Hook
  | hook h => some h
  | _ => none

namespace ScriptDefinition

variable {edits : List ScriptEdit}

/-- An edit registers its hook behind the others, and other edits leave the hooks. -/
theorem hooks_edit (d : ScriptDefinition) (e : ScriptEdit) :
    (d.edit e).hooks.hooks = d.hooks.hooks ++ e.hook?.toList := by
  cases e with
  | hook h => rfl
  | _ => exact (List.append_nil _).symm

/-- Behind all edits a definition has its own hooks and those of the edits (`hook?`), in their
order. -/
theorem hooks_editAll (d : ScriptDefinition) (edits : List ScriptEdit) :
    (d.editAll edits).hooks.hooks = d.hooks.hooks ++ edits.filterMap ScriptEdit.hook? := by
  induction edits generalizing d with
  | nil => exact (List.append_nil _).symm
  | cons e rest ih =>
    have hrest := ih (d.edit e)
    rw [hooks_edit, List.append_assoc] at hrest
    rw [editAll, List.foldl_cons, ← editAll, hrest]
    cases he : e.hook? with
    | none => rw [List.filterMap_cons_none he, Option.toList_none, List.nil_append]
    | some h => rw [List.filterMap_cons_some he, Option.toList_some, List.singleton_append]

/-- A script without a name becomes no template, and the missing field is named. -/
theorem build_of_name_eq_none {d : ScriptDefinition} (h : d.name = none) :
    d.build = .error (.missingField "name") := by
  rw [build, h]

/-- A script of a name becomes a template of that name, which has the parameters and the hooks of
the script and leaves its manifest to the script (`produce`). -/
theorem build_of_name_eq_some {d : ScriptDefinition} {name : String} (h : d.name = some name) :
    d.build = .ok {
      name, parameters := d.parameters, producer := some d.produce, hooks := d.hooks } := by
  rw [build, h]

/-- Behind edits a script of a name becomes a template whose hooks are those that it had, and then
those that the edits registered (`hook?`). -/
theorem build_editAll {d : ScriptDefinition} {name : String}
    (h : (d.editAll edits).name = some name) :
    (d.editAll edits).build = .ok {
      name
      parameters := (d.editAll edits).parameters
      producer := some (d.editAll edits).produce
      hooks := ⟨d.hooks.hooks ++ edits.filterMap ScriptEdit.hook?⟩ } := by
  rw [build_of_name_eq_some h, ← hooks_editAll]

end ScriptDefinition

namespace TemplateDefinition

/-- The definition behind a step that adds hooks, one or a whole chain. -/
def register (t : TemplateDefinition) : Registration → TemplateDefinition
  | .hook h => t.addHook h
  | .chain a => t.addHooks (a.chain id)

/-- The definition behind steps that add hooks, in the order of the steps. -/
def registerAll (t : TemplateDefinition) (steps : List Registration) : TemplateDefinition :=
  steps.foldl register t

/-- A template with its declarations, if it is valid (`Template.validate`). -/
def validated (declarations : List Declaration) (template : Template) :
    Except Error CompiledTemplate :=
  match template.validate with
  | .ok () => .ok ⟨template, declarations⟩
  | .error e => .error (.template e)

/-- A step adds its hooks at the end and changes nothing else of the definition. -/
theorem register_eq (t : TemplateDefinition) (step : Registration) :
    t.register step = { t with hooks := ⟨t.hooks.hooks ++ step.hooks⟩ } := by
  cases step with
  | hook h => rfl
  | chain a =>
    rw [register, addHooks, HookChain.extend, HookChain.Assembly.hooks_chain, List.map_id]
    rfl

/-- Steps add their hooks at the end and change nothing else, by induction over the steps. -/
theorem registerAll_eq (t : TemplateDefinition) (steps : List Registration) :
    t.registerAll steps
      = { t with hooks := ⟨t.hooks.hooks ++ steps.flatMap Registration.hooks⟩ } := by
  induction steps generalizing t with
  | nil => rw [List.flatMap_nil, List.append_nil]; rfl
  | cons step rest ih =>
    rw [registerAll, List.foldl_cons, ← registerAll, ih, register_eq, List.flatMap_cons,
      List.append_assoc]

/-- A compilation hands the template that is put together to all hooks (`Hook.composed`), and what
they leave must be valid. -/
theorem compile_eq_validated_composed (t : TemplateDefinition) :
    t.compile = (do
      let inputs ← buildParameters t.parameters
      t.checkName
      let manifest ← t.resolveManifest
      validated t.parameters
        (Hook.composed t.hooks.hooks { name := t.name, inputs, manifest })) := by
  rw [← HookChain.apply_eq_composed]
  rfl

/-- The hooks that are registered in steps run behind those that are there, and everything else of
the compilation is as without them. -/
theorem compile_registerAll (t : TemplateDefinition) (steps : List Registration) :
    (t.registerAll steps).compile = (do
      let inputs ← buildParameters t.parameters
      t.checkName
      let manifest ← t.resolveManifest
      validated t.parameters (Hook.composed (t.hooks.hooks ++ steps.flatMap Registration.hooks)
        { name := t.name, inputs, manifest })) := by
  rw [compile_eq_validated_composed, registerAll_eq]
  rfl

end TemplateDefinition

/-! ## Stock hooks -/

/-- A manifest with another image and another command, if there are such; a resource has neither and
stays as it is. -/
def Manifest.override (image : Option String) (command : Option (List String)) :
    Manifest → Manifest
  | container c => container { c with image := image.or c.image, command := command.or c.command }
  | script s => script { s with image := image.getD s.image, command := command.or s.command }
  | resource r => resource r

namespace StockHook

/-- The image that a hook forces; a hook that sets the command forces none. -/
def image? : StockHook → Option String
  | forceImage image => some image
  | withCommand _ => none

/-- The command that a hook sets; a hook that forces an image sets none. -/
def command? : StockHook → Option (List String)
  | forceImage _ => none
  | withCommand command => some command

/-- What the last one of the hooks that set a part sets it to, where `part?` tells what a hook sets.
-/
def last? (part? : StockHook → Option α) (hooks : List StockHook) : Option α :=
  (hooks.filterMap part?).getLast?

/-- A hook counts if no later one sets the part, which is how `last?` goes over a list. -/
theorem last?_cons (part? : StockHook → Option α) (h : StockHook) (rest : List StockHook) :
    last? part? (h :: rest) = (last? part? rest).or (part? h) := by
  unfold last?
  cases hh : part? h with
  | none => rw [List.filterMap_cons_none hh, Option.or_none]
  | some a =>
    rw [List.filterMap_cons_some hh, List.getLast?_cons]
    cases (rest.filterMap part?).getLast? <;> rfl

/-- **The last stock hook of a kind wins**, for the image and for the command on its own. -/
theorem changeAll_eq (hooks : List StockHook) (m : Manifest) :
    changeAll hooks m = m.override (last? image? hooks) (last? command? hooks) := by
  unfold changeAll
  induction hooks generalizing m with
  | nil => cases m <;> rfl
  | cons h rest ih =>
    rw [List.foldl_cons, ih, last?_cons, last?_cons]
    cases h <;> cases m <;>
      simp [change, image?, command?, Manifest.override, Manifest.withImage, Manifest.withCommand]

/-- Behind a chain of stock hooks a template has the image and the command of the last hooks
(`last?`), and is otherwise as it was. -/
theorem apply_chain (a : HookChain.Assembly StockHook) (t : Template) :
    (a.chain hook).apply t = { t with
      manifest := t.manifest.override (last? image? a.registered) (last? command? a.registered) } := by
  have hchain : a.chain hook = .ofStock a.registered :=
    congrArg HookChain.mk (a.hooks_chain hook)
  rw [hchain, HookChain.apply_ofStock, changeAll_eq]

end StockHook

/-! ## Compilation -/

open HookChain (Assembly)

/-- **Hooks run in the order of their registration.** However a chain is put together (`Assembly`),
it hands a template to its hooks in the order in which they were added. A script definition `d`
behind `edits` becomes a template exactly if it has a name: a template of this name, with the
parameters and the manifest of the script, and with the hooks of `d` before those that the `edits`
registered. Behind further `steps` that register hooks and chains it is compiled by handing the
template that is put together to the hooks of `d`, to those of the `edits` and to those of the
`steps`, in this order. So a chain of stock hooks leaves a template as it is but for the image and
the command of a container or a script, which are those of the last hook that sets them, if there is
one. -/
theorem hooks_run_in_order :
    (∀ (a : Assembly Hook) (t : Template), (a.chain id).apply t = Hook.composed a.registered t)
      ∧ (∀ (d : ScriptDefinition) (edits : List ScriptEdit),
        ((d.editAll edits).name = none →
          (d.editAll edits).build = .error (.missingField "name"))
        ∧ ∀ name, (d.editAll edits).name = some name →
          ∃ t, (d.editAll edits).build = .ok t
            ∧ t = {
              name
              parameters := (d.editAll edits).parameters
              producer := some (d.editAll edits).produce
              hooks := ⟨d.hooks.hooks ++ edits.filterMap ScriptEdit.hook?⟩ }
            ∧ ∀ steps : List Registration, (t.registerAll steps).compile = (do
              let inputs ← buildParameters (d.editAll edits).parameters
              t.checkName
              let manifest ← (d.editAll edits).produce
              TemplateDefinition.validated (d.editAll edits).parameters (Hook.composed
                (d.hooks.hooks ++ edits.filterMap ScriptEdit.hook?
                  ++ steps.flatMap Registration.hooks) { name, inputs, manifest })))
      ∧ ∀ (a : Assembly StockHook) (name : String) (inputs : List Parameter),
        (∀ c, (a.chain StockHook.hook).apply { name, inputs, manifest := .container c }
          = { name, inputs, manifest := .container { c with
              image := (StockHook.last? StockHook.image? a.registered).or c.image
              command := (StockHook.last? StockHook.command? a.registered).or c.command } })
        ∧ (∀ s, (a.chain StockHook.hook).apply { name, inputs, manifest := .script s }
          = { name, inputs, manifest := .script { s with
              image := (StockHook.last? StockHook.image? a.registered).getD s.image
              command := (StockHook.last? StockHook.command? a.registered).or s.command } })
        ∧ ∀ r, (a.chain StockHook.hook).apply { name, inputs, manifest := .resource r }
          = { name, inputs, manifest := .resource r } := by
  refine ⟨fun a t => ?_, fun d edits => ⟨ScriptDefinition.build_of_name_eq_none, fun name hname => ?_⟩,
    fun a name inputs => ?_⟩
  · rw [HookChain.apply_eq_composed, Assembly.hooks_chain, List.map_id]
  · exact ⟨_, ScriptDefinition.build_editAll hname, rfl, TemplateDefinition.compile_registerAll _⟩
  -- Hooks of the stock change the manifest alone, each kind in its own way, so the three cases are
  -- instances of one statement.
  · have happly (m : Manifest) := StockHook.apply_chain a { name, inputs, manifest := m }
    exact ⟨fun c => happly (.container c), fun s => happly (.script s),
      fun r => happly (.resource r)⟩

/-- A hook that puts a mark behind the name of a template. -/
def markHook (mark : String) : Hook := fun t => { t with name := t.name ++ mark }

/-- A script with a name, an image and a hook of its own. -/
def markedScript : ScriptDefinition where
  flavor := .bash
  name := some "greet"
  image := some "alpine"
  body := "echo hello"
  hooks := ⟨[markHook "-a"]⟩

/-- Edits that register hooks around one that changes the script, so that only the hooks must keep
their order. -/
def markingEdits : List ScriptEdit :=
  [.hook (markHook "-b"), .image "busybox", .hook (.forceImage "debian")]

/-- A hook, and a chain that another chain went into. -/
def markingSteps : List Registration :=
  [.hook (markHook "-c"), .chain (.push (.extend (.push .empty (markHook "-d"))
    (.push .empty (.forceImage "ubuntu"))) (markHook "-e"))]

/-- The marks stand in the order in which their hooks were registered, and the image is that of the
last hook that forces one. -/
theorem markedScript_compiled :
    ∃ t, (markedScript.editAll markingEdits).build = .ok t ∧ t.hooks.hooks.length = 3
      ∧ (t.registerAll markingSteps).compile = .ok {
        template := {
          name := "greet-a-b-c-d-e"
          manifest := .script {
            image := "ubuntu", command := some ["bash"], source := "echo hello" } }
        declarations := [] } := by
  obtain ⟨-, hscripts, -⟩ := hooks_run_in_order
  obtain ⟨t, hbuild, ht, hcompile⟩ := (hscripts markedScript markingEdits).2 "greet" rfl
  refine ⟨t, hbuild, ?_, (hcompile markingSteps).trans ?_⟩
  · rw [ht]
    rfl
  · rw [ht]
    rfl

end WorkflowTemplates
