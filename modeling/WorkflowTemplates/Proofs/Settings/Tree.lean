import WorkflowTemplates.Proofs.Names
import WorkflowTemplates.Settings.Tree

/-!
# Fields of records in a tree of settings

A tree holds records, which are tables under a name, and a record holds fields (`field`). Whatever
the way in which an entry of a source reaches a record, as a table that merges with it or as a path
into it, it gives fields of the record values (`given`), and the fields of the other records stay
(`field_set`). So a source gives a field the last of its values, and a field without a value keeps
what it had (`field_overlay`). For this an entry may put no table into a field, nor take the place
of the record with anything else than a table (`FitsRecord`).
-/

namespace WorkflowTemplates

namespace Setting

variable {record name other : String} {value target : Setting}

/-! ## Entries -/

/-- Whether a setting is a table. What is no table replaces what stands in its place, where a table
merges with it. -/
def IsTable : Setting → Prop
  | table _ => True
  | _ => False

/-- What has entries is a table: `Setting.entries` of anything else is empty. -/
theorem exists_table_of_lookup (h : target.entries.lookup name = some value) :
    ∃ entries, target = table entries ∧ entries.lookup name = some value := by
  cases target with
  | table entries => exact ⟨entries, rfl, h⟩
  | _ => cases h

/-- A setting that `put` puts under a name stands there if it is no table. -/
theorem lookup_put_self (h : ¬ value.IsTable) :
    (put target name value).entries.lookup name = some value := by
  cases value with
  | table _ => exact absurd trivial h
  | _ => exact (lookup_insertEntry name name _ _).trans (if_pos rfl)

/-- What `put` puts under one name leaves the other names alone. -/
theorem lookup_put_of_ne (h : name ≠ other) :
    (put target other value).entries.lookup name = target.entries.lookup name := by
  cases value <;> exact (lookup_insertEntry other name _ _).trans (if_neg h)

/-- A table that merges gives a name the last of its values (`lastUnder`), if no value under that
name is a table, and otherwise leaves it. -/
theorem lookup_merge {entries : List (String × Setting)}
    (h : ∀ v, (name, v) ∈ entries → ¬ v.IsTable) :
    (merge target entries).entries.lookup name
      = (lastUnder name entries).or (target.entries.lookup name) := by
  induction entries generalizing target with
  | nil => rfl
  | cons entry entries ih =>
    obtain ⟨k, v⟩ := entry
    rw [merge, ih fun v hv => h v (List.mem_cons_of_mem _ hv), lastUnder_cons]
    by_cases hk : name = k
    · subst hk
      rw [lookup_put_self (h v List.mem_cons_self), if_pos rfl, Option.or_assoc]
      rfl
    · rw [lookup_put_of_ne hk, if_neg hk, Option.or_none]

/-! ## Fields -/

/-- A field of a record: what stands under its name in the table under the name of the record. -/
def field (record name : String) (tree : Setting) : Option Setting :=
  (tree.entries.lookup record).bind fun t => t.entries.lookup name

/-- A field stands in a table of a table, which `Setting.entries` hides by giving the entries of any
setting. -/
theorem exists_tables_of_field (h : field record name target = some value) :
    ∃ entries, target = table entries ∧ ∃ fields, entries.lookup record = some (table fields) ∧
      fields.lookup name = some value := by
  obtain ⟨t, ht, hvalue⟩ := Option.bind_eq_some_iff.1 h
  obtain ⟨entries, rfl, hentries⟩ := exists_table_of_lookup ht
  obtain ⟨fields, rfl, hfields⟩ := exists_table_of_lookup hvalue
  exact ⟨entries, rfl, fields, hentries, hfields⟩

/-- The fields to which an entry with a path gives values: those of a table under the name of the
record, the one to which a path into the record leads, and none for a path that goes on or starts
elsewhere. -/
def given (record : String) : Step × List Step → Setting → List (String × Setting)
  | (.name first, []), value => if first = record then value.entries else []
  | (.name first, [.name name]), value => if first = record then [(name, value)] else []
  | _, _ => []

/-- An entry gives no fields to a record with whose name its path does not start, however the path
goes on (`rest`). -/
theorem given_of_ne {first : String} (h : first ≠ record) (rest : List Step) :
    given record (.name first, rest) value = [] := by
  unfold given
  split
  · next hpath =>
    cases hpath
    exact if_neg h
  · next hpath =>
    cases hpath
    exact if_neg h
  · rfl

/-- An entry with a path gives a record fields that fit (`Fits`, by name and value). Behind the name
of a field a path may only go on if anything fits there. -/
inductive FitsRecord (record : String) (Fits : String → Setting → Prop) :
    Step × List Step → Setting → Prop
  | table {entries : List (String × Setting)} (h : ∀ e ∈ entries, Fits e.1 e.2) :
      FitsRecord record Fits (.name record, []) (.table entries)
  | field {name : String} {value : Setting} (h : Fits name value) :
      FitsRecord record Fits (.name record, [.name name]) value
  | inside {name : String} {next : Step} {rest : List Step} {value : Setting}
      (h : ∀ v, Fits name v) :
      FitsRecord record Fits (.name record, .name name :: next :: rest) value
  | elsewhere {first : String} {rest : List Step} {value : Setting} (h : first ≠ record) :
      FitsRecord record Fits (.name first, rest) value

section
variable {Fits : String → Setting → Prop} {path : Step × List Step}

/-- The values that an entry gives to fields (`given`) fit, whichever way the entry reaches the
record. -/
theorem FitsRecord.of_mem_given (h : FitsRecord record Fits path value) {v : Setting}
    (hv : (name, v) ∈ given record path value) : Fits name v := by
  cases h with
  | table h =>
    rw [given, if_pos rfl] at hv
    exact h _ hv
  | field h =>
    rw [given, if_pos rfl, List.mem_singleton] at hv
    cases hv
    exact h
  | inside => cases hv
  | elsewhere h =>
    rw [given_of_ne h] at hv
    cases hv

/-- A path leaves the names alone that it does not start with: `Setting.set` rebuilds only what
stands under its first step. -/
theorem lookup_set_of_ne (h : name ≠ other) (rest : List Step) :
    (set value target (.name other) rest).entries.lookup name = target.entries.lookup name := by
  cases rest with
  | nil => exact lookup_put_of_ne h
  | cons next rest => exact (lookup_insertEntry other name _ _).trans (if_neg h)

/-- A path into a record sets what the rest of the path sets in the record, or in `nothing` if there
is no record yet. -/
theorem field_set_inside (next : Step) (rest : List Step) :
    field record name (set value target (.name record) (next :: rest))
      = (set value ((target.entries.lookup record).getD .nothing) next rest).entries.lookup name := by
  rw [set, field, entries, lookup_insertEntry, if_pos rfl]
  rfl

/-- The fields of what stands under the name of a record, whether something does or not: a `default`
without entries has no fields. -/
theorem lookup_getD {default : Setting} (h : default.entries = []) :
    ((target.entries.lookup record).getD default).entries.lookup name
      = field record name target := by
  unfold field
  cases target.entries.lookup record with
  | none => rw [Option.getD_none, h]; rfl
  | some t => rfl

/-- An entry that fits a record gives a field, in which there is no table (`hname`), the last of its
values, and leaves the field as it was if it gives it none. -/
theorem field_set (h : FitsRecord record Fits path value)
    (hname : ∀ v, Fits name v → ¬ v.IsTable) :
    field record name (set value target path.1 path.2)
      = (lastUnder name (given record path value)).or (field record name target) := by
  have hmem : ∀ v, (name, v) ∈ given record path value → ¬ v.IsTable :=
    fun v hv => hname v (h.of_mem_given hv)
  cases h with
  | @table entries h =>
    rw [given, if_pos rfl] at hmem ⊢
    rw [set, put, field, Setting.entries, lookup_insertEntry, if_pos rfl]
    refine (lookup_merge hmem).trans ?_
    rw [lookup_getD rfl]
  | @field n _ h =>
    rw [given, if_pos rfl] at hmem ⊢
    rw [field_set_inside, set, lastUnder_cons, lastUnder_nil, Option.none_or]
    by_cases hn : name = n
    · subst hn
      rw [lookup_put_self (hmem value List.mem_cons_self), if_pos rfl]
      rfl
    · rw [lookup_put_of_ne hn, lookup_getD rfl, if_neg hn]
      rfl
  | @inside n _ _ _ h =>
    have hn : name ≠ n := by
      rintro rfl
      exact hname _ (h (.table [])) trivial
    rw [field_set_inside, lookup_set_of_ne hn, lookup_getD rfl]
    rfl
  | @elsewhere first rest _ h =>
    rw [given_of_ne h, field, lookup_set_of_ne (Ne.symm h)]
    rfl

end

/-! ## Sources -/

/-- The fields to which a source gives values, in the order of its entries, whose names are read as
paths (`readPath`). -/
def allGiven (record : String) (source : List (String × Setting)) : List (String × Setting) :=
  source.flatMap fun e => given record (readPath e.1) e.2

section
variable {Fits : String → Setting → Prop} {source : List (String × Setting)}

/-- The values that a source gives to fields fit, in particular the last one of a field. -/
theorem fits_of_lastUnder (h : ∀ e ∈ source, FitsRecord record Fits (readPath e.1) e.2)
    (hvalue : lastUnder name (allGiven record source) = some value) : Fits name value := by
  obtain ⟨e, he, hgiven⟩ := List.mem_flatMap.1 (mem_of_lastUnder hvalue)
  exact (h e he).of_mem_given hgiven

theorem overlay_cons (e : String × Setting) :
    overlay target (e :: source)
      = overlay (set e.2 target (readPath e.1).1 (readPath e.1).2) source := rfl

/-- A source gives a field the last of its values (`allGiven`), by induction over its entries. -/
theorem field_overlay (h : ∀ e ∈ source, FitsRecord record Fits (readPath e.1) e.2)
    (hname : ∀ v, Fits name v → ¬ v.IsTable) :
    field record name (overlay target source)
      = (lastUnder name (allGiven record source)).or (field record name target) := by
  induction source generalizing target with
  | nil => rfl
  | cons e source ih =>
    rw [overlay_cons, ih fun e he => h e (List.mem_cons_of_mem _ he),
      field_set (h e List.mem_cons_self) hname, ← Option.or_assoc, ← lastUnder_append]
    rfl

end

end Setting

end WorkflowTemplates
