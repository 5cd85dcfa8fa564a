import Mathlib.Data.List.Basic
import Mathlib.Data.List.Induction
import WorkflowTemplates.Entries

/-!
# Names of parts

Parts of a whole often have names that must be distinct: declarations, input parameters, fields of
records, members of objects. A part is then found under its name (`find?_name_eq`). Where a name may
come more than once, the last of its entries counts (`lastUnder`), and the names stand in the order
in which they first came (`eraseDups_pairwise`).
-/

namespace WorkflowTemplates

/-! ## Distinct names -/

section
variable {α : Type} {name : α → String} {a : α} {rest parts : List α} {seen : List String}

/-- Behind the first of distinct names the others are new still: `seen` grows by the name of `a`,
which is none of theirs. -/
theorem name_notMem_cons (hnew : ∀ b ∈ a :: rest, name b ∉ seen)
    (hdistinct : name a ∉ rest.map name) : ∀ b ∈ rest, name b ∉ name a :: seen := by
  intro b hb hm
  rcases List.mem_cons.1 hm with he | hm
  · exact hdistinct (he ▸ List.mem_map_of_mem hb)
  · exact hnew b (List.mem_cons_of_mem _ hb) hm

/-- Among `parts` of distinct names a part is the one that is found under its name (`List.find?`).
-/
theorem find?_name_eq (hdistinct : (parts.map name).Nodup) (ha : a ∈ parts) :
    parts.find? (fun b => name b = name a) = some a := by
  induction parts with
  | nil => cases ha
  | cons first rest ih =>
    rw [List.map_cons, List.nodup_cons] at hdistinct
    rcases List.mem_cons.1 ha with rfl | ha
    · simp
    · have hne : name first ≠ name a := fun e => hdistinct.1 (e ▸ List.mem_map_of_mem ha)
      simp [hne, ih hdistinct.2 ha]

end

/-! ## The last entry of a name -/

section
variable {α : Type} {name : String} {v : α} {entries : List (String × α)}

/-- The value in the last of the `entries` that have the name, if there is one. -/
def lastUnder (name : String) (entries : List (String × α)) : Option α :=
  entries.reverse.lookup name

@[simp]
theorem lastUnder_nil : lastUnder name ([] : List (String × α)) = none := rfl

/-- The entries of `second` are looked at before those of `first`. -/
theorem lastUnder_append (first second : List (String × α)) :
    lastUnder name (first ++ second) = (lastUnder name second).or (lastUnder name first) := by
  rw [lastUnder, List.reverse_append, List.lookup_append]
  rfl

/-- The first entry counts only if none of the others has the name, so a fold from the right end
finds the same value as `lastUnder`. -/
theorem lastUnder_cons (other : String) (v : α) (entries : List (String × α)) :
    lastUnder name ((other, v) :: entries)
      = (lastUnder name entries).or (if name = other then some v else none) := by
  rw [← List.singleton_append, lastUnder_append]
  congr 1
  exact lookup_cons_eq_ite name other v []

theorem mem_of_lastUnder (h : lastUnder name entries = some v) : (name, v) ∈ entries := by
  obtain ⟨before, after, hreverse, -⟩ := List.lookup_eq_some_iff.1 h
  rw [← List.mem_reverse, hreverse]
  exact List.mem_append_right _ List.mem_cons_self

/-- Every name that came has a last entry, of which `lastUnder` gives the value. -/
theorem exists_lastUnder (h : name ∈ entries.map (·.1)) : ∃ v, lastUnder name entries = some v := by
  rw [← Option.isSome_iff_exists, Option.isSome_iff_ne_none, lastUnder, Ne,
    lookup_eq_none_iff_notMem, not_not, List.map_reverse, List.mem_reverse]
  exact h

end

/-! ## The order in which names first come -/

section
variable {names : List String} {name : String}

/-- A name behind others comes to the end if it is new; otherwise `List.eraseDups` drops it. -/
theorem eraseDups_concat (names : List String) (name : String) :
    (names ++ [name]).eraseDups
      = if name ∈ names then names.eraseDups else names.eraseDups ++ [name] := by
  rw [List.eraseDups_append]
  split
  · next h => simp [List.removeAll, h]
  · next h => simp [List.removeAll, h, List.eraseDups_cons]

/-- Without their later occurrences (`List.eraseDups`) names stand in the order of their first
ones, and so each only once. -/
theorem eraseDups_pairwise (names : List String) :
    names.eraseDups.Pairwise fun a b => names.idxOf a < names.idxOf b := by
  induction names using List.reverseRecOn with
  | nil => exact .nil
  | append_singleton names name ih =>
    have hfirst {a : String} (ha : a ∈ names.eraseDups) :
        (names ++ [name]).idxOf a = names.idxOf a :=
      List.idxOf_append_of_mem (List.mem_eraseDups.1 ha)
    have hbefore : names.eraseDups.Pairwise fun a b =>
        (names ++ [name]).idxOf a < (names ++ [name]).idxOf b := by
      refine ih.imp_of_mem fun ha hb hlt => ?_
      rwa [hfirst ha, hfirst hb]
    rw [eraseDups_concat]
    split
    · exact hbefore
    · next hnew =>
      refine List.pairwise_append.2 ⟨hbefore, List.pairwise_singleton _ _, fun a ha b hb => ?_⟩
      obtain rfl := List.mem_singleton.1 hb
      rw [hfirst ha, List.idxOf_append_of_notMem hnew]
      exact Nat.lt_add_right _ (List.idxOf_lt_length_of_mem (List.mem_eraseDups.1 ha))

end

end WorkflowTemplates
