/-!
# Entries under names

A list of entries gives names their values: arguments of a call, tables of settings. Putting a value
under a name (`insertEntry`) replaces the name's entry in its place, or adds one at the end.
-/

namespace WorkflowTemplates

variable {α : Type}

/-- The entries with `value` under `name`: in the place of the first entry of `name`, or at the end
if no entry has the name. -/
def insertEntry (name : String) (value : α) : List (String × α) → List (String × α)
  | [] => [(name, value)]
  | (other, v) :: rest =>
    if other = name then (other, value) :: rest else (other, v) :: insertEntry name value rest

/-- The names of the entries after `insertEntry`: the same if `name` was among them, else one
more. -/
theorem map_insertEntry (name : String) (value : α) (entries : List (String × α)) :
    (insertEntry name value entries).map (·.1)
      = if name ∈ entries.map (·.1) then entries.map (·.1) else entries.map (·.1) ++ [name] := by
  induction entries with
  | nil => simp [insertEntry]
  | cons e rest ih =>
    obtain ⟨other, v⟩ := e
    by_cases h : other = name
    · simp [insertEntry, h]
    · have h' : ¬name = other := fun e => h e.symm
      simp only [insertEntry, if_neg h, List.map_cons, ih, List.mem_cons, h', false_or]
      split <;> simp

/-- The first entry decides a look-up if it has the name; `List.lookup` by `if` instead of by `==`.
-/
theorem lookup_cons_eq_ite (name other : String) (v : α) (entries : List (String × α)) :
    ((other, v) :: entries).lookup name = if name = other then some v else entries.lookup name := by
  by_cases h : name = other
  · rw [if_pos h, h, List.lookup_cons_self]
  · rw [if_neg h, List.lookup_cons, beq_eq_false_iff_ne.2 h]

/-- A look-up after `insertEntry` finds the new value under its name, and under every other name
what it found before. -/
theorem lookup_insertEntry (name n : String) (value : α) (entries : List (String × α)) :
    (insertEntry name value entries).lookup n
      = if n = name then some value else entries.lookup n := by
  induction entries with
  | nil => exact lookup_cons_eq_ite n name value []
  | cons e rest ih =>
    obtain ⟨other, v⟩ := e
    by_cases ho : other = name
    · subst ho
      rw [insertEntry, if_pos rfl, lookup_cons_eq_ite, lookup_cons_eq_ite]
      split <;> rfl
    · rw [insertEntry, if_neg ho, lookup_cons_eq_ite, lookup_cons_eq_ite, ih]
      by_cases h : n = other
      · rw [if_pos h, if_pos h, if_neg (h ▸ ho)]
      · rw [if_neg h, if_neg h]

/-- A look-up finds nothing exactly if no entry has the name (`List.lookup_eq_none_iff` over the
list of names). -/
theorem lookup_eq_none_iff_notMem {name : String} {entries : List (String × α)} :
    entries.lookup name = none ↔ name ∉ entries.map (·.1) := by
  rw [List.lookup_eq_none_iff, List.mem_map]
  constructor
  · rintro h ⟨entry, hentry, rfl⟩
    simpa using h entry hentry
  · intro h entry hentry
    exact bne_iff_ne.2 fun heq => h ⟨entry, hentry, heq.symm⟩

end WorkflowTemplates
