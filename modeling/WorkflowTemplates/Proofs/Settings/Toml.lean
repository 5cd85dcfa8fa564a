import Mathlib.Data.List.Forall2
import WorkflowTemplates.Proofs.Text.Runs
import WorkflowTemplates.Settings.Toml.Reader

/-!
# TOML documents of records

The usual TOML document of settings is a list of records: the header of a table under a bare key
(`IsBareKey`), and below it an entry for each field, a bare key and a literal string
(`IsLiteral`). `read_documentText` says what such a document is read as: a table for each record,
with a text for each field.

The lines are read one by one (`IsLine`, `readLines_of`), and what is built from them grows by one
record (`build_records`) and by one field (`build_fields`) at its end.
-/

namespace WorkflowTemplates.Toml

open Text (Stops stops_cons ne_of_kind)

/-- A record of a file of settings: the name of its table, and the names and texts of its fields. -/
abbrev Record := String × List (String × String)

/-! ## Keys and literal strings -/

/-- A bare key of TOML: at least one character, each an ASCII letter, an ASCII digit, `_` or
`-` (`isKeyChar`). -/
structure IsBareKey (key : String) : Prop where
  nonempty : key.toList ≠ []
  chars : ∀ c ∈ key.toList, isKeyChar c = true

/-- What can stand in a literal string of TOML on one line: no control character but the tab
(`isPlain`), and no single quote. -/
def IsLiteral (text : String) : Prop :=
  ∀ c ∈ text.toList, isPlain c = true ∧ c ≠ '\''

section
variable {key : String} {rest : List Char}

/-- A bare key starts with a character of keys (`isKeyChar`), by which the reader tells it from a
comment, a header and the end of the line. -/
theorem IsBareKey.exists_cons (h : IsBareKey key) :
    ∃ c s, key.toList = c :: s ∧ isKeyChar c = true := by
  obtain ⟨c, s, hs⟩ := List.exists_cons_of_ne_nil h.nonempty
  exact ⟨c, s, hs, h.chars c (by rw [hs]; exact List.mem_cons_self)⟩

/-- A character of keys is no blank: blanks are the space and the tab only (`isSpace`). -/
theorem isSpace_of_isKeyChar {c : Char} (h : isKeyChar c = true) : isSpace c = false := by
  rw [isSpace, Bool.or_eq_false_iff]
  exact ⟨beq_false_of_ne (ne_of_kind h rfl), beq_false_of_ne (ne_of_kind h rfl)⟩

/-- No blank stands in front of a bare key, so `skipSpace` leaves it where it is. -/
theorem IsBareKey.skipSpace (h : IsBareKey key) :
    skipSpace (key.toList ++ rest) = key.toList ++ rest := by
  obtain ⟨c, s, hs, hc⟩ := h.exists_cons
  rw [hs]
  exact (stops_cons (isSpace_of_isKeyChar hc) _).dropWhile

/-- A bare key is read up to the first character that cannot stand in one (`Stops`). -/
theorem readKeyPart?_bare (h : IsBareKey key) (hrest : Stops isKeyChar rest) :
    readKeyPart? (key.toList ++ rest) = some (key, rest) := by
  have htake := hrest.takeWhile_run h.chars
  have hdrop := hrest.dropWhile_run h.chars
  obtain ⟨c, s, hs, hc⟩ := h.exists_cons
  have hquote : ¬(c = '"' ∨ c = '\'') :=
    not_or.2 ⟨ne_of_kind hc rfl, ne_of_kind hc rfl⟩
  have hempty : ¬(c :: s).isEmpty = true := Bool.false_ne_true
  simp only [hs, List.cons_append] at htake hdrop ⊢
  rw [readKeyPart?, if_neg hquote, htake, hdrop, if_neg hempty, ← hs, String.ofList_toList]

/-- A key without dots is the last part of a path of no other parts; the blanks behind it are read
with it, and `hdot` says that no further part follows them. -/
theorem readKey?_bare {behind : List Char} (h : IsBareKey key) (hrest : Stops isKeyChar rest)
    (hbehind : skipSpace rest = behind) (hdot : ∀ t, behind ≠ '.' :: t) :
    readKey? (key.toList ++ rest) = some (([], key), behind) := by
  have hparts : readKeyParts? (78 + 1) (key.toList ++ rest) = some ([key], behind) := by
    rw [readKeyParts?, h.skipSpace, readKeyPart?_bare h hrest, Option.bind_eq_bind,
      Option.bind_some]
    dsimp only
    rw [hbehind]
    split
    · exact absurd rfl (hdot _)
    · rfl
  rw [readKey?, maxDepth, hparts]
  rfl

end

section
variable {s rest : List Char}

/-- A literal string is read up to its quote, with no escapes: `readContent` takes each plain
character as it is. -/
theorem readContent_literal (h : ∀ c ∈ s, isPlain c = true ∧ c ≠ '\'') :
    readContent '\'' false (.plain false) (s ++ '\'' :: rest) = some (s, rest) := by
  induction s with
  | nil => simp [readContent]
  | cons c s ih =>
    obtain ⟨hplain, hquote⟩ := h c List.mem_cons_self
    have hs := ih fun d hd => h d (List.mem_cons_of_mem _ hd)
    simp [readContent, hplain, hquote, hs, consText]

/-- The quote of a literal string on one line opens no string over several lines: for that two more
quotes would have to stand right behind it. -/
theorem behindTwo?_literal {c : Char} (h : ∀ c ∈ s, isPlain c = true ∧ c ≠ '\'') (hc : c ≠ '\'') :
    behindTwo? '\'' (s ++ '\'' :: c :: rest) = none := by
  match s, h with
  | [], _ => simp [behindTwo?, hc]
  | [d], h => simp [behindTwo?, (h d List.mem_cons_self).2]
  | d :: e :: s, h => simp [behindTwo?, (h d List.mem_cons_self).2]

/-- A literal string (`IsLiteral`) in front of another character is a value. That character is no
quote, or an empty string would open one over several lines. -/
theorem readValue?_literal {text : String} {c : Char} (h : IsLiteral text) (hc : c ≠ '\'')
    (bound depth : Nat) :
    readValue? (bound + 1) depth ('\'' :: (text.toList ++ '\'' :: c :: rest))
      = some (.setting (.text text), c :: rest) := by
  rw [readValue?, readSimple?, if_pos (.inr rfl), readText, behindTwo?_literal h hc]
  · dsimp only
    rw [readShortText, readContent_literal h, Option.map_some, Option.map_some]
    dsimp only
    rw [String.ofList_toList]
  · nofun
  · nofun

end

/-! ## Lines -/

/-- The header of the table of a record: its name in brackets, on a line of its own. -/
def headerText (name : String) : List Char :=
  '[' :: (name.toList ++ [']', '\n'])

/-- The entry of a field: its name, an equals sign between spaces, and its text between single
quotes. -/
def entryText (field : String × String) : List Char :=
  field.1.toList ++ ' ' :: '=' :: ' ' :: '\'' :: (field.2.toList ++ ['\'', '\n'])

/-- A line as it is written: it is read as `line` whatever follows it, and starts with a character
at which no blank, comment or empty line starts. -/
structure IsLine (text : List Char) (line : Line) : Prop where
  starts : ∃ c s, text = c :: s ∧ isSpace c = false ∧ ¬(c = '#' ∨ c = '\n' ∨ c = '\r')
  reads (rest : List Char) : readLine? (text ++ rest) = some (line, rest)

/-- The header of a record is a line (`IsLine`) that opens its table. -/
theorem isLine_header {name : String} (h : IsBareKey name) :
    IsLine (headerText name) (.header [] name) := by
  refine ⟨⟨'[', _, rfl, rfl, by decide⟩, fun rest => ?_⟩
  obtain ⟨c, s, hs, hc⟩ := h.exists_cons
  have hkey : readKey? (name.toList ++ ']' :: '\n' :: rest)
      = some (([], name), ']' :: '\n' :: rest) :=
    readKey?_bare h (stops_cons rfl _) rfl nofun
  have htext : headerText name ++ rest = '[' :: (name.toList ++ ']' :: '\n' :: rest) := by
    simp [headerText]
  have hbracket : ∀ t, name.toList ++ ']' :: '\n' :: rest ≠ '[' :: t := by
    rw [hs]
    rintro t ⟨⟩
    cases hc
  rw [htext, readLine?, hkey]
  · rfl
  · exact hbracket

/-- The entry of a field is a line (`IsLine`) that says its text, in the table that is open. -/
theorem isLine_entry {field : String × String} (hkey : IsBareKey field.1)
    (htext : IsLiteral field.2) :
    IsLine (entryText field) (.entry [] field.1 (.setting (.text field.2))) := by
  obtain ⟨c, s, hs, hc⟩ := hkey.exists_cons
  refine ⟨⟨c, _, by rw [entryText, hs]; rfl, isSpace_of_isKeyChar hc, ?_⟩, fun rest => ?_⟩
  · rintro (rfl | rfl | rfl) <;> cases hc
  · have hread : readKey? (entryText field ++ rest)
        = some (([], field.1), '=' :: ' ' :: '\'' :: (field.2.toList ++ '\'' :: '\n' :: rest)) := by
      simp only [entryText, List.append_assoc, List.cons_append, List.nil_append]
      exact readKey?_bare hkey (stops_cons rfl _) rfl nofun
    have hbracket : ∀ t, entryText field ++ rest ≠ '[' :: t := by
      rw [entryText, hs]
      rintro t ⟨⟩
      cases hc
    rw [readLine?, hread]
    · change (readValue? _ 0 ('\'' :: (field.2.toList ++ '\'' :: '\n' :: rest)) >>= _) = _
      rw [readValue?_literal htext (by decide)]
      rfl
    · exact fun t => hbracket _
    · exact hbracket

/-- At the start of a line (`IsLine.starts`) no lines are skipped, however many may be. -/
theorem IsLine.skipLines {text : List Char} {line : Line} (h : IsLine text line)
    (bound : Nat) (rest : List Char) : skipLines? bound (text ++ rest) = some (text ++ rest) := by
  obtain ⟨c, s, rfl, hspace, hbreak⟩ := h.starts
  cases bound with
  | zero => rfl
  | succ bound =>
    have hskip : skipSpace (c :: (s ++ rest)) = c :: (s ++ rest) :=
      (stops_cons hspace _).dropWhile
    rw [List.cons_append, skipLines?, hskip]
    exact if_neg hbreak

/-- Lines are read one after the other, by induction over them. Each line has a character at least,
so the length of the text is a sufficient `bound`. -/
theorem readLines_of {texts : List (List Char)} {lines : List Line}
    (h : List.Forall₂ IsLine texts lines) {bound : Nat} (hbound : texts.flatten.length ≤ bound) :
    readLines? bound texts.flatten = some lines := by
  induction h generalizing bound with
  | nil => cases bound <;> rfl
  | @cons text line texts lines hline _ ih =>
    obtain ⟨c, s, hs, -⟩ := hline.starts
    rw [List.flatten_cons, List.length_append, hs, List.length_cons] at hbound
    obtain ⟨bound, rfl⟩ : ∃ b, bound = b + 1 := ⟨bound - 1, by omega⟩
    rw [List.flatten_cons, readLines?, hline.skipLines]
    dsimp only
    rw [hs, List.cons_append]
    dsimp only
    rw [← List.cons_append, ← hs, hline.reads, Option.bind_eq_bind, Option.bind_some, ih (by omega)]
    rfl

/-! ## Tables -/

section
variable {α : Type} {name : String} {entries : List (String × α)}

/-- A new name is added at the end of the entries by `insertEntry`. -/
theorem insertEntry_of_notMem (h : name ∉ entries.map (·.1)) (value : α) :
    insertEntry name value entries = entries ++ [(name, value)] := by
  induction entries with
  | nil => rfl
  | cons e entries ih =>
    rw [List.map_cons, List.mem_cons, not_or] at h
    rw [insertEntry, if_neg (Ne.symm h.1), ih h.2, List.cons_append]

/-- The value of the last name is replaced by `insertEntry`, if the name is not among the other
entries. -/
theorem insertEntry_concat (h : name ∉ entries.map (·.1)) (old value : α) :
    insertEntry name value (entries ++ [(name, old)]) = entries ++ [(name, value)] := by
  induction entries with
  | nil => exact if_pos rfl
  | cons e entries ih =>
    rw [List.map_cons, List.mem_cons, not_or] at h
    rw [List.cons_append, insertEntry, if_neg (Ne.symm h.1), ih h.2, List.cons_append]

/-- The last name is found behind the others, if it is not among them. -/
theorem lookup_concat (h : name ∉ entries.map (·.1)) (value : α) :
    (entries ++ [(name, value)]).lookup name = some value := by
  rw [List.lookup_append, lookup_eq_none_iff_notMem.2 h, Option.none_or, List.lookup_cons_self]

end

/-- The lines of a record, as `readLine?` reads them: the header, and below it an entry for each
field. -/
def recordLines (record : Record) : List Line :=
  .header [] record.1 :: record.2.map fun field => .entry [] field.1 (.setting (.text field.2))

/-- The entries of the fields of a record, in its table. -/
def fieldItems (fields : List (String × String)) : Table :=
  fields.map fun field => (field.1, .value (.setting (.text field.2)))

/-- The table of a record, which its header opened (`TableOrigin.header`). -/
def recordItem (record : Record) : String × Item :=
  (record.1, .table .header (fieldItems record.2))

section
variable {name : String} {done : Table}

/-- An entry adds a field to the table of the last record: it is there that the current path
`[name]` leads. -/
theorem addInside_field (hname : name ∉ done.map (·.1)) {fields : List (String × String)}
    {field : String × String} (hnew : field.1 ∉ fields.map (·.1)) :
    Table.addInside [name] [] field.1 (.setting (.text field.2))
        (done ++ [recordItem (name, fields)])
      = some (done ++ [recordItem (name, fields ++ [field])]) := by
  have hnames : (fieldItems fields).map (·.1) = fields.map (·.1) := by
    rw [fieldItems, List.map_map]
    rfl
  rw [← hnames] at hnew
  have hadd : Table.addEntry [] field.1 (.setting (.text field.2)) (fieldItems fields)
      = some (fieldItems (fields ++ [field])) := by
    rw [Table.addEntry, Table.alter, lookup_eq_none_iff_notMem.2 hnew, insertEntry_of_notMem hnew,
      fieldItems, fieldItems, List.map_append]
    rfl
  rw [Table.addInside, Table.alter, recordItem, lookup_concat hname]
  dsimp only
  rw [if_neg nofun, Table.alter, hadd, Option.map_some, insertEntry_concat hname, recordItem]

/-- Each entry adds a field to the table of the record: behind the fields that are `known`, by
induction over those that follow. -/
theorem build_fields (hname : name ∉ done.map (·.1)) (known fields : List (String × String))
    (hdistinct : ((known ++ fields).map (·.1)).Nodup) (rest : List Line) :
    build [name] (done ++ [recordItem (name, known)])
        (fields.map (fun field => .entry [] field.1 (.setting (.text field.2))) ++ rest)
      = build [name] (done ++ [recordItem (name, known ++ fields)]) rest := by
  induction fields generalizing known with
  | nil => rw [List.append_nil, List.map_nil, List.nil_append]
  | cons field fields ih =>
    have hnew : field.1 ∉ known.map (·.1) := by
      rw [List.map_append, List.map_cons] at hdistinct
      exact fun hmem => (List.nodup_append.1 hdistinct).2.2 _ hmem _ List.mem_cons_self rfl
    rw [List.append_cons] at hdistinct
    rw [List.map_cons, List.cons_append, build, addInside_field hname hnew, Option.bind_some,
      ih _ hdistinct, ← List.append_cons]

/-- A record is built behind the ones before it, whichever table is `current`: its header opens a
new one. -/
theorem build_record {record : Record} (hname : record.1 ∉ done.map (·.1))
    (hdistinct : (record.2.map (·.1)).Nodup) (current : List String) (rest : List Line) :
    build current done (recordLines record ++ rest)
      = build [record.1] (done ++ [recordItem record]) rest := by
  have hopen : Table.openTable [] record.1 done = some (done ++ [recordItem (record.1, [])]) := by
    rw [Table.openTable, Table.alter, lookup_eq_none_iff_notMem.2 hname]
    exact congrArg some (insertEntry_of_notMem hname _)
  rw [recordLines, List.cons_append, build, hopen, Option.bind_some]
  exact build_fields hname [] record.2 hdistinct rest

/-- The table of a document has an entry for each record, in their order, by induction over the
records behind those in `done`. -/
theorem build_records (done : Table) {records : List Record}
    (hdistinct : ∀ record ∈ records, (record.2.map (·.1)).Nodup)
    (hnames : (done.map (·.1) ++ records.map (·.1)).Nodup) (current : List String) :
    build current done (records.flatMap recordLines) = some (done ++ records.map recordItem) := by
  induction records generalizing done current with
  | nil => rw [List.map_nil, List.append_nil]; rfl
  | cons record records ih =>
    have hname : record.1 ∉ done.map (·.1) := fun hmem =>
      (List.nodup_append.1 hnames).2.2 _ hmem _ List.mem_cons_self rfl
    rw [List.flatMap_cons, build_record hname (hdistinct record List.mem_cons_self),
      ih _ fun r hr => hdistinct r (List.mem_cons_of_mem _ hr)]
    · rw [List.map_cons, ← List.append_cons]
    · rw [List.map_append, List.append_assoc]
      exact hnames

end

/-! ## Documents -/

/-- The lines of a record as they are written (`headerText`, `entryText`), one for each of its
`recordLines`. -/
def recordTexts (record : Record) : List (List Char) :=
  headerText record.1 :: record.2.map entryText

/-- The text of a document of records: the lines of each record, one record below the other. -/
def documentText (records : List Record) : List Char :=
  (records.flatMap recordTexts).flatten

/-- Records that can be written in this way: their names and the names of their fields are bare keys
(`IsBareKey`), no two in one table are the same, and the texts are literal strings (`IsLiteral`). -/
structure Writable (records : List Record) : Prop where
  names : (records.map (·.1)).Nodup
  name {record : Record} : record ∈ records → IsBareKey record.1
  fields {record : Record} : record ∈ records → (record.2.map (·.1)).Nodup
  key {record : Record} : record ∈ records → ∀ field ∈ record.2, IsBareKey field.1
  text {record : Record} : record ∈ records → ∀ field ∈ record.2, IsLiteral field.2

/-- The setting of a record: a table of texts under names in lower case, as all names of settings
are read. -/
def recordSetting (record : Record) : String × Setting :=
  (Setting.lowerName record.1,
    .table (record.2.map fun field => (Setting.lowerName field.1, .text field.2)))

/-- A table whose first key is a bare one is no moment: there is a dollar sign in `momentKey`, and
none in a bare key. -/
theorem tableSetting?_bare {settings : Option (List (String × Setting))} {t : Table}
    (h : ∀ e ∈ t, IsBareKey e.1) : tableSetting? settings t = settings.map .table := by
  cases t with
  | nil => rfl
  | cons e t =>
    refine if_neg ?_
    rintro hmoment
    have hdollar := (h e List.mem_cons_self).chars '$' (by rw [hmoment]; decide)
    exact absurd hdollar (by decide)

/-- The settings of the fields of a record, under names in lower case (`Setting.lowerName`). -/
theorem settingsOf?_fieldItems (fields : List (String × String)) :
    settingsOf? (fieldItems fields)
      = some (fields.map fun field => (Setting.lowerName field.1, .text field.2)) := by
  induction fields with
  | nil => rfl
  | cons field fields ih =>
    rw [fieldItems, List.map_cons, settingsOf?, ← fieldItems, ih]
    rfl

/-- The settings of records are a table for each (`recordSetting`), if the names of the fields are
bare keys. -/
theorem settingsOf?_recordItems {records : List Record}
    (h : ∀ record ∈ records, ∀ field ∈ record.2, IsBareKey field.1) :
    settingsOf? (records.map recordItem) = some (records.map recordSetting) := by
  induction records with
  | nil => rfl
  | cons record records ih =>
    have hbare : ∀ e ∈ fieldItems record.2, IsBareKey e.1 :=
      List.forall_mem_map.2 (h record List.mem_cons_self)
    rw [List.map_cons, recordItem, settingsOf?, Item.toSetting?, tableSetting?_bare hbare,
      settingsOf?_fieldItems, ih fun r hr => h r (List.mem_cons_of_mem _ hr)]
    rfl

/-- Each line of a record is written as one that is read, so `readLines_of` applies to the lines of
all records. -/
theorem isLine_recordTexts {record : Record} (hname : IsBareKey record.1)
    (hkey : ∀ field ∈ record.2, IsBareKey field.1)
    (htext : ∀ field ∈ record.2, IsLiteral field.2) :
    List.Forall₂ IsLine (recordTexts record) (recordLines record) := by
  refine .cons (isLine_header hname) (List.forall₂_map_left_iff.2 (List.forall₂_map_right_iff.2 ?_))
  exact List.forall₂_same.2 fun field hfield => isLine_entry (hkey field hfield) (htext field hfield)

/-- The lines of records are read one by one, back into the `recordLines` they were written from. -/
theorem readLines?_documentText {records : List Record} (h : Writable records) :
    readLines? (documentText records).length (documentText records)
      = some (records.flatMap recordLines) := by
  have hlines : List.Forall₂ IsLine (records.flatMap recordTexts)
      (records.flatMap recordLines) := by
    have hsame : List.Forall₂ (fun a b => a ∈ records ∧ a = b) records records :=
      List.forall₂_same.2 fun _ hrecord => ⟨hrecord, rfl⟩
    refine List.rel_flatMap hsame ?_
    rintro record _ ⟨hrecord, rfl⟩
    exact isLine_recordTexts (h.name hrecord) (h.key hrecord) (h.text hrecord)
  exact readLines_of hlines le_rfl

/-- A document of records is read as a table for each of them, in which each field has its text
(`recordSetting`). -/
theorem read_documentText {records : List Record} (h : Writable records) :
    read? (documentText records) = some (records.map recordSetting) := by
  have hmark : dropByteOrderMark (documentText records) = documentText records := by
    cases records <;> rfl
  have hbuild : build [] [] (records.flatMap recordLines) = some (records.map recordItem) :=
    build_records [] (fun _ => h.fields) h.names []
  have hbare : ∀ e ∈ records.map recordItem, IsBareKey e.1 :=
    List.forall_mem_map.2 fun _ => h.name
  rw [read?, hmark, readLines?_documentText h, Option.bind_eq_bind, Option.bind_some, hbuild,
    Option.bind_eq_bind, Option.bind_some, Table.toSetting?, tableSetting?_bare hbare,
    settingsOf?_recordItems fun _ => h.key]
  rfl

end WorkflowTemplates.Toml
