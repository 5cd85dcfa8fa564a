import WorkflowTemplates.Schema.Template

/-!
# Hooks

A hook changes a template after it was put together. The hooks of a chain run in the order in which
they were registered, each on what the one before it left.
-/

namespace WorkflowTemplates

/-- A change of a template that is put together already; it cannot fail. -/
abbrev Hook := Template → Template

/-- Hooks in the order in which they were registered, in which they run (`HookChain.apply`). -/
structure HookChain where
  hooks : List Hook := []

namespace HookChain

/-- The chain `c` with the hook `h` at its end. -/
def push (c : HookChain) (h : Hook) : HookChain :=
  ⟨c.hooks ++ [h]⟩

/-- The chain `c` with the hooks of the chain `d` at its end, in their order. -/
def extend (c d : HookChain) : HookChain :=
  ⟨c.hooks ++ d.hooks⟩

/-- The number of hooks of the chain `c`. -/
def size (c : HookChain) : Nat :=
  c.hooks.length

/-- Whether there are no hooks in the chain `c`. -/
def isEmpty (c : HookChain) : Bool :=
  c.hooks.isEmpty

/-- What the hooks of the chain `c` make of the template `t`, each of what the one before it left.
-/
def apply (c : HookChain) (t : Template) : Template :=
  c.hooks.foldl (fun t h => h t) t

@[simp]
theorem apply_push (c : HookChain) (h : Hook) (t : Template) :
    (c.push h).apply t = h (c.apply t) := by
  simp [apply, push]

@[simp]
theorem apply_extend (c d : HookChain) (t : Template) :
    (c.extend d).apply t = d.apply (c.apply t) := by
  simp [apply, extend]

end HookChain

namespace Hook

/-- The hook that replaces the image of a container or script; a resource stays
(`Manifest.withImage`). -/
def forceImage (image : String) : Hook :=
  fun t => { t with manifest := t.manifest.withImage image }

/-- The hook that replaces the command of a container or script; a resource stays
(`Manifest.withCommand`). -/
def withCommand (command : List String) : Hook :=
  fun t => { t with manifest := t.manifest.withCommand command }

end Hook

end WorkflowTemplates
