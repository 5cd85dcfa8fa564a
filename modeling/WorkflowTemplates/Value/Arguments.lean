import WorkflowTemplates.Entries
import WorkflowTemplates.Value.Basic

/-!
# Arguments of a call

The arguments of a call stand in the order in which their names first came, each name once
(`Arguments.distinct`). Inserting a value under a name that is there replaces the value in its place
(`insertEntry`).
-/

namespace WorkflowTemplates

/-- The arguments of a call, in the order in which their names first came; no name occurs twice,
which is part of it. -/
structure Arguments where
  entries : List (String × Value) := []
  distinct : (entries.map (·.1)).Nodup := by simp

namespace Arguments

/-- The arguments of a call that passes nothing. -/
def empty : Arguments := {}

/-- The arguments `a` with `value` under `name`, in the place of the old value if there is one
(`insertEntry`). -/
def insert (a : Arguments) (name : String) (value : Value) : Arguments where
  entries := insertEntry name value a.entries
  distinct := by
    rw [map_insertEntry]
    split
    · exact a.distinct
    · next h =>
      refine List.nodup_append.2 ⟨a.distinct, by simp, ?_⟩
      intro x hx y hy e
      simp only [List.mem_singleton] at hy
      subst hy e
      exact h hx

/-- The arguments that a sequence of insertions leaves, from none on. -/
def ofInserts (inserts : List (String × Value)) : Arguments :=
  inserts.foldl (fun a e => a.insert e.1 e.2) empty

/-- The names of the arguments `a`, in the order in which they first came. -/
def names (a : Arguments) : List String :=
  a.entries.map (·.1)

/-- The value that the arguments `a` have under `name`. -/
def get? (a : Arguments) (name : String) : Option Value :=
  a.entries.lookup name

/-- The number of arguments in `a`, each name counted once. -/
def size (a : Arguments) : Nat :=
  a.entries.length

/-- Whether `a` has no arguments. -/
def isEmpty (a : Arguments) : Bool :=
  a.entries.isEmpty

@[simp]
theorem names_insert (a : Arguments) (name : String) (value : Value) :
    (a.insert name value).names = if name ∈ a.names then a.names else a.names ++ [name] :=
  map_insertEntry name value a.entries

@[simp]
theorem get?_insert (a : Arguments) (name n : String) (value : Value) :
    (a.insert name value).get? n = if n = name then some value else a.get? n :=
  lookup_insertEntry name n value a.entries

end Arguments

end WorkflowTemplates
