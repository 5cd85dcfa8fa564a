import WorkflowTemplates.Settings.Toml.Moment
import WorkflowTemplates.Settings.Tree

/-!
# TOML documents

A TOML document is a list of lines: headers, which open a table or the next table of a list, and
entries under dotted keys. The tables that it describes are built line by line. A table remembers
how it came about, since a header may open a table only once, and a dotted key may add to tables
that dotted keys made and to no others. It also remembers the order of its keys: a table whose first
key is a certain one is no table but the moment that the text under the key spells.
-/

namespace WorkflowTemplates.Toml

/-- A value as it is written in a document, before all of the document is known. -/
inductive Datum
  | setting (s : Setting)
  /-- A moment becomes a text as a setting, but `Item.moment?` does not take it for one. -/
  | moment (text : String)
  /-- A value with a table inside that ought to be a moment but spells none. -/
  | faulty

/-- The setting that a value is, unless it is `faulty`. -/
def Datum.toSetting? : Datum → Option Setting
  | setting s => some s
  | moment text => some (.text text)
  | faulty => none

/-- The value that is the given setting, or `faulty` without one. -/
def Datum.ofSetting? : Option Setting → Datum
  | some s => .setting s
  | none => .faulty

/-- The list of values, which is `faulty` if one of them is. -/
def Datum.ofItems (items : List Datum) : Datum :=
  .ofSetting? ((items.mapM Datum.toSetting?).map .list)

/-- A line of a document: an entry, or the header of a table or of the next table of a list. The
dotted key is split into the path and its last part. -/
inductive Line
  | entry (path : List String) (key : String) (value : Datum)
  | header (path : List String) (key : String)
  | listHeader (path : List String) (key : String)

/-- How a table came about: by its own header, by a header of a table inside it, or by a dotted key.
-/
inductive Origin
  | header
  | implied
  | dotted
  deriving DecidableEq

/-- What stands under a key: a value, a table, or a list of tables, of which the last is the first
here. -/
inductive Item
  | value (v : Datum)
  | table (origin : Origin) (entries : List (String × Item))
  | tables (entries : List (List (String × Item)))

instance : Inhabited Item := ⟨.value (.setting .nothing)⟩

/-- The contents of a table in the order in which the keys came. -/
abbrev Table := List (String × Item)

namespace Table

/-- The contents `t` without the entry of `key`. -/
def erase (key : String) (t : Table) : Table :=
  t.filter (·.1 != key)

/-- Changes the table at the end of a path, and makes it and the tables around it of the given
origin where they are missing. A list of tables stands for its last one. Dotted keys must not lead
into a table that has a header. The origin of the table, none for a table of a list, is given to
the change. -/
def alter (origin : Origin) (change : Option Origin → Table → Option Table) :
    Option Origin → List String → Table → Option Table
  | here, [], t => change here t
  | _, key :: path, t =>
    match t.lookup key with
    | none =>
      (alter origin change (some origin) path []).map fun u => insertEntry key (.table origin u) t
    | some (.value _) | some (.tables []) => none
    | some (.tables (u :: rest)) =>
      (alter origin change none path u).map fun u => insertEntry key (.tables (u :: rest)) t
    | some (.table found u) =>
      if origin = .dotted ∧ found = .header then none
      else (alter origin change (some found) path u).map fun u => insertEntry key (.table found u) t

/-- Adds an entry to the table `t`. A key without dots belongs to the table itself, and a dotted one
to a table that dotted keys made; no key may be given twice. -/
def addEntry (path : List String) (key : String) (value : Datum) (t : Table) : Option Table :=
  alter .dotted (fun here u =>
    if (path ≠ [] ∧ here ≠ some .dotted) ∨ (u.lookup key).isSome then none
    else some (insertEntry key (.value value) u)) none path t

/-- Opens the table of a header in `t`, unless it was opened before or something else stands there.
The key of a table that was only implied moves behind all others of the table around it. -/
def openTable (path : List String) (key : String) (t : Table) : Option Table :=
  alter .implied (fun _ u =>
    match u.lookup key with
    | none => some (insertEntry key (.table .header []) u)
    | some (.table .implied v) => some (erase key u ++ [(key, .table .header v)])
    | some _ => none) none path t

/-- Opens the next table of the list at a path in `t`; a value or a table may not stand there. -/
def openNext (path : List String) (key : String) (t : Table) : Option Table :=
  alter .implied (fun _ u =>
    match u.lookup key with
    | none => some (insertEntry key (.tables [[]]) u)
    | some (.tables vs) => some (insertEntry key (.tables ([] :: vs)) u)
    | some _ => none) none path t

/-- Adds an entry (`addEntry`) to the table that the last header opened, at the path `current`. -/
def addInside (current : List String) (path : List String) (key : String) (value : Datum)
    (t : Table) : Option Table :=
  alter .implied (fun _ u => addEntry path key value u) none current t

end Table

/-- The key that makes a moment of a table in which it is the first (`tableSetting?`). -/
def momentKey : String := "$__toml_private_datetime"

/-- The moment that the text of an item spells (`momentOf?`); other items spell none. -/
def Item.moment? : Item → Option Setting
  | .value (.setting (.text text)) =>
    (momentOf? text.toList).map fun moment => .text (String.ofList moment)
  | _ => none

/-- The setting that a table with the given `settings` is: a table, or the moment that its first
item spells under `momentKey`. -/
def tableSetting? (settings : Option (List (String × Setting))) : Table → Option Setting
  | [] => settings.map .table
  | (key, item) :: _ => if key = momentKey then item.moment? else settings.map .table

mutual

/-- The setting that an item is, if every moment inside it spells one; the tables of a list come in
the order of the document. -/
def Item.toSetting? : Item → Option Setting
  | .value v => v.toSetting?
  | .table _ entries => tableSetting? (settingsOf? entries) entries
  | .tables ts => (listsOf? ts).map fun items => .list items.reverse

/-- The settings of a table under names in lower case, in the order of its keys. -/
def settingsOf? : List (String × Item) → Option (List (String × Setting))
  | [] => some []
  | (k, v) :: rest => do
    let setting ← v.toSetting?
    let settings ← settingsOf? rest
    return (Setting.lowerName k, setting) :: settings

/-- The tables of a list as settings, the last one first as in `Item.tables`. -/
def listsOf? : List (List (String × Item)) → Option (List Setting)
  | [] => some []
  | t :: rest => do
    let setting ← tableSetting? (settingsOf? t) t
    let settings ← listsOf? rest
    return setting :: settings

end

/-- The setting that the whole table `t` is (`tableSetting?`). -/
def Table.toSetting? (t : Table) : Option Setting :=
  tableSetting? (settingsOf? t) t

/-- The contents of a document that goes on with lines, after `t` and inside the table at the path
`current`. A header changes that path, and nothing is the result if a line is not allowed. -/
def build (current : List String) (t : Table) : List Line → Option Table
  | [] => some t
  | .entry path key value :: rest =>
    (Table.addInside current path key value t).bind fun t => build current t rest
  | .header path key :: rest =>
    (Table.openTable path key t).bind fun t => build (path ++ [key]) t rest
  | .listHeader path key :: rest =>
    (Table.openNext path key t).bind fun t => build (path ++ [key]) t rest

/-- The contents of a table that is written on one line, with its entries added one by one
(`addEntry`). -/
def inline : Table → List (List String × String × Datum) → Option Table
  | t, [] => some t
  | t, (path, key, value) :: rest => (t.addEntry path key value).bind fun t => inline t rest

end WorkflowTemplates.Toml
