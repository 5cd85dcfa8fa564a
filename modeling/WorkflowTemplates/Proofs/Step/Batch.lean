import WorkflowTemplates.Proofs.Json.Memory
import WorkflowTemplates.Proofs.Names
import WorkflowTemplates.Proofs.Step.Serialized
import WorkflowTemplates.Proofs.Value.Encoded

/-!
# Loops over items

A step that loops over items and has no call of its own passes one parameter for each name that an
item uses, in the order of their first uses, and its items are objects of the texts that a call with
the item's values would pass (`toWorkflowStep_batch`). Items are encoded one after the other and
entry by entry (`encodeItems_eq`), so the first entry that has no text there says why the step has
no workflow step.
-/

namespace WorkflowTemplates

/-! ## Encoded items -/

/-- Why an entry of an item has no text in a loop: it is a reference, or its value has no encoding
by the `declared` type of its name. -/
inductive EntryRefused (declared : String → Option TypeTag) : String × Value → EncodingError → Prop
  | reference (name : String) (v : ValueFrom) :
    EntryRefused declared (name, .reference v) ⟨name, .referenceAsItem⟩
  | encoding {name : String} {v : Value} {e : EncodingError} :
    encode name v (declared name) = .error e → EntryRefused declared (name, v) e

/-- The text of an entry of an item, under its name; a reference has none, although it has an
encoding. -/
def itemText (declared : String → Option TypeTag) (entry : String × Value) :
    Except EncodingError (String × String) :=
  match encode entry.1 entry.2 (declared entry.1) with
  | .error e => .error e
  | .ok (.reference _) => .error ⟨entry.1, .referenceAsItem⟩
  | .ok (.literal text) => .ok (entry.1, text)

section
variable {declared : String → Option TypeTag} {entries : List (String × Value)}

/-- The entries that have no text in a loop are those that are refused, for the reason of
`EntryRefused`. -/
theorem itemText_eq_error {entry : String × Value} {e : EncodingError} :
    itemText declared entry = .error e ↔ EntryRefused declared entry e := by
  obtain ⟨name, v⟩ := entry
  unfold itemText
  constructor
  · intro h
    split at h
    · next he =>
      cases h
      exact .encoding he
    · next r he =>
      cases h
      obtain rfl : v = .reference r := encode_eq_reference.1 he
      exact .reference name r
    · cases h
  · rintro (_ | h)
    · rfl
    · rw [h]

/-- The text of an entry is the value that a call passes for it (`encode`). -/
theorem itemText_eq_ok {entry : String × Value} {named : String × String} :
    itemText declared entry = .ok named
      ↔ named.1 = entry.1
        ∧ encode entry.1 entry.2 (declared entry.1) = .ok (.literal named.2) := by
  unfold itemText
  split
  · next he => simp [he]
  · next he => simp [he]
  · next text he => simp [he, Prod.ext_iff, eq_comm]

/-- The object of named texts, one member for each of them. -/
def textObject (texts : List (String × String)) : Json :=
  .ofMembers (texts.map fun t => (t.1, .string t.2))

/-- The members of an item are the texts of its entries, or the error of the first that has none
(`itemText`). -/
theorem itemMembers_eq :
    itemMembers declared entries
      = (entries.mapM (itemText declared)).map (List.map fun t => (t.1, .string t.2)) := by
  induction entries with
  | nil => rfl
  | cons entry rest ih =>
    obtain ⟨name, v⟩ := entry
    rw [List.mapM_cons, itemMembers, ih, itemText]
    cases encode name v (declared name) with
    | error e => rfl
    | ok encoded =>
      cases encoded with
      | reference r => rfl
      | literal text => cases rest.mapM (itemText declared) <;> rfl

/-- Items are encoded entry by entry, and each is the object of its texts (`textObject`). -/
theorem encodeItems_eq (items : List Arguments) :
    encodeItems declared items
      = ((items.map Arguments.entries).mapM (List.mapM (itemText declared))).map
        (List.map textObject) := by
  induction items with
  | nil => rfl
  | cons item rest ih =>
    rw [List.map_cons, List.mapM_cons, encodeItems, ih, itemMembers_eq]
    cases item.entries.mapM (itemText declared) with
    | error e => rfl
    | ok texts => cases (rest.map Arguments.entries).mapM (List.mapM (itemText declared)) <;> rfl

/-- The texts of the entries of an item are what a call with these entries passes, one parameter for
each. -/
theorem resolveEntries_of_texts {texts : List (String × String)}
    (h : entries.mapM (itemText declared) = .ok texts) :
    texts.map (·.1) = entries.map (·.1)
      ∧ resolveEntries declared entries
        = .ok (texts.map fun t => { name := t.1, value := some t.2 }) := by
  rw [mapM_eq_ok] at h
  induction h with
  | nil => exact ⟨rfl, rfl⟩
  | @cons entry named rest texts hentry _ ih =>
    obtain ⟨hname, hencode⟩ := itemText_eq_ok.1 hentry
    refine ⟨by rw [List.map_cons, List.map_cons, hname, ih.1], ?_⟩
    rw [resolveEntries, hencode, ih.2, List.map_cons, hname]
    rfl

end

/-- An object holds just what a call with the arguments of an item would pass: the names of the
item, with the texts of the parameters of these names. Its members stand in the order of names,
those of the item in the order of insertion. -/
def HoldsArguments (c : CompiledTemplate) (item : Arguments) (object : Json) : Prop :=
  ∃ texts : List (String × String), texts.map (·.1) = item.names
    ∧ c.resolveArguments item = .ok (texts.map fun t => { name := t.1, value := some t.2 })
    ∧ ∃ members, object = .object members ∧ members.Perm (texts.map fun t => (t.1, .string t.2))

/-- The texts of an item are an object that holds them (`HoldsArguments`). -/
theorem holdsArguments_textObject {c : CompiledTemplate} {item : Arguments}
    {texts : List (String × String)}
    (h : item.entries.mapM (itemText c.declaredType?) = .ok texts) :
    HoldsArguments c item (textObject texts) := by
  obtain ⟨hnames, hresolve⟩ := resolveEntries_of_texts h
  have hdistinct : ((texts.map fun t => (t.1, Json.string t.2)).map (·.1)).Nodup := by
    rw [List.map_map]
    show (texts.map (·.1)).Nodup
    rw [hnames]
    exact item.distinct
  exact ⟨texts, hnames, hresolve, Json.ofMembers_perm hdistinct⟩

/-! ## Steps over items -/

/-- A step of the name of a template that loops over items and has no call of its own, so that the
items alone say what is passed. -/
structure TaskStep.IsBatch (s : TaskStep) (c : CompiledTemplate) (items : List Arguments) :
    Prop where
  template : s.template = c.name
  batch : s.batch = some (.items items)
  call : s.arguments = none

namespace TaskStep.IsBatch

variable {s : TaskStep} {c : CompiledTemplate} {items : List Arguments} {w : WorkflowStep}

/-- A loop over items fails as the encoding of the first entry (`FirstFails`) that has no text in
it, item by item. -/
theorem toWorkflowStep_eq_error (h : s.IsBatch c items) {e : Error} :
    s.toWorkflowStep c = .error e
      ↔ ∃ e', FirstFails (itemText c.declaredType?) (items.flatMap (·.entries)) e'
        ∧ e = .encoding e' := by
  have hitems (e' : EncodingError) : encodeItems c.declaredType? items = .error e'
      ↔ FirstFails (itemText c.declaredType?) (items.flatMap (·.entries)) e' := by
    rw [encodeItems_eq, map_eq_error, mapM_mapM_eq_error, List.flatMap]
  rw [TaskStep.toWorkflowStep_eq_error]
  constructor
  · rintro (hname | ⟨-, ha, -⟩ | ⟨-, -, hb, he⟩)
    · exact absurd h.template.symm hname
    · cases h.call.symm.trans ha
    · cases h.batch.symm.trans hb
      exact ⟨_, (hitems _).1 he, rfl⟩
  · rintro ⟨e', he, rfl⟩
    have hcall (a : Arguments) (ha : s.arguments = some a) :
        ∃ ps, c.resolveArguments a = .ok ps := nomatch h.call.symm.trans ha
    exact .item h.template.symm hcall h.batch ((hitems e').2 he)

/-- A loop over items that does not fail has an object for each item (`HoldsArguments`), and passes
the fields of the names that items use. -/
theorem toWorkflowStep_eq_ok (h : s.IsBatch c items) (hw : s.toWorkflowStep c = .ok w) :
    ∃ objects, List.Forall₂ (HoldsArguments c) items objects
      ∧ { name := s.name, template := s.template,
          arguments := if (itemParameters items).isEmpty then none else some (itemParameters items),
          withItems := some objects, withSequence := s.sequence,
          condition := s.condition : WorkflowStep } = w := by
  obtain ⟨-, ps, hps, encoded, hencoded, rfl⟩ := TaskStep.toWorkflowStep_eq_ok.1 hw
  obtain rfl : itemParameters items = ps := by
    rw [parameters, h.call, h.batch] at hps
    exact Except.ok.inj hps
  have hparam : s.withParam = none := by rw [withParam, h.batch]
  have hencoded : (encodeItems c.declaredType? items).map some = .ok encoded := by
    rwa [withItems, h.batch] at hencoded
  obtain ⟨objects, hobjects, rfl⟩ := map_eq_ok.1 hencoded
  rw [encodeItems_eq, map_eq_ok] at hobjects
  obtain ⟨texts, htexts, rfl⟩ := hobjects
  rw [mapM_eq_ok, List.forall₂_map_left_iff] at htexts
  refine ⟨texts.map textObject, ?_, by rw [hparam]⟩
  exact List.forall₂_map_right_iff.2 (htexts.imp fun _ _ => holdsArguments_textObject)

end TaskStep.IsBatch

/-- **A loop over items passes what its items use.** The step has no workflow step exactly if some
entry of an item is a reference or has no encoding by the declared type of its name, and then the
first such entry says why. Otherwise it passes exactly the names that occur in an item, each once
and in the order in which they first occur, by the field of that name of the item; and its items are
objects of what calls with them would pass. -/
theorem toWorkflowStep_batch {s : TaskStep} {c : CompiledTemplate} {items : List Arguments}
    (h : s.IsBatch c items) :
    ((∃ e, s.toWorkflowStep c = .error e)
        ↔ ∃ item ∈ items, ∃ entry ∈ item.entries, ∃ e, EntryRefused c.declaredType? entry e)
      ∧ (∀ e, s.toWorkflowStep c = .error e
        ↔ ∃ before entry after e', items.flatMap (·.entries) = before ++ entry :: after
          ∧ (∀ b ∈ before, ¬∃ e, EntryRefused c.declaredType? b e)
          ∧ EntryRefused c.declaredType? entry e' ∧ e = .encoding e')
      ∧ ∀ w, s.toWorkflowStep c = .ok w →
        (∃ names : List String,
          w.arguments = (if names = [] then none else some (names.map fun name =>
            { name, value := some ("\x7b\x7bitem." ++ name ++ "\x7d\x7d") }))
          ∧ (∀ name, name ∈ names ↔ ∃ item ∈ items, name ∈ item.names)
          ∧ names.Pairwise fun a b =>
            (items.flatMap (·.names)).idxOf a < (items.flatMap (·.names)).idxOf b)
        ∧ (∃ objects, w.withItems = some objects
          ∧ List.Forall₂ (HoldsArguments c) items objects)
        ∧ w.withParam = none ∧ w.name = s.name ∧ w.template = s.template
        ∧ w.withSequence = s.sequence ∧ w.condition = s.condition := by
  refine ⟨?_, fun e => ?_, fun w hw => ?_⟩
  -- Entries are taken item by item, and whether some entry fails does not depend on the order.
  · have hfails : (∃ e, s.toWorkflowStep c = .error e)
        ↔ ∃ e', FirstFails (itemText c.declaredType?) (items.flatMap (·.entries)) e' := by
      simp only [h.toWorkflowStep_eq_error]
      exact ⟨fun ⟨_, e', he, _⟩ => ⟨e', he⟩, fun ⟨e', he⟩ => ⟨_, e', he, rfl⟩⟩
    rw [hfails, exists_firstFails_iff]
    simp only [itemText_eq_error, List.mem_flatMap]
    exact ⟨fun ⟨entry, ⟨item, hitem, hentry⟩, he⟩ => ⟨item, hitem, entry, hentry, he⟩,
      fun ⟨item, hitem, entry, hentry, he⟩ => ⟨entry, ⟨item, hitem, hentry⟩, he⟩⟩
  · simp only [h.toWorkflowStep_eq_error, FirstFails, itemText_eq_error, exists_ok_iff]
    constructor
    · rintro ⟨e', ⟨before, entry, after, hall, hbefore, he⟩, rfl⟩
      exact ⟨before, entry, after, e', hall, hbefore, he, rfl⟩
    · rintro ⟨before, entry, after, e', hall, hbefore, he, rfl⟩
      exact ⟨e', ⟨before, entry, after, hall, hbefore, he⟩, rfl⟩
  · obtain ⟨objects, hobjects, rfl⟩ := h.toWorkflowStep_eq_ok hw
    refine ⟨⟨(items.flatMap (·.names)).eraseDups, ?_, fun name => ?_, ?_⟩,
      ⟨objects, rfl, hobjects⟩, rfl, rfl, rfl, rfl, rfl⟩
    · simp only [itemParameters, List.isEmpty_iff, List.map_eq_nil_iff]
      rfl
    · rw [List.mem_eraseDups, List.mem_flatMap]
    · exact eraseDups_pairwise _

/-- A template that declares a message and a count, the count with a default. -/
def announceTemplate : CompiledTemplate where
  template := { name := "announce", manifest := .container { image := some "alpine" } }
  declarations := [⟨"message", .string, none⟩, ⟨"count", .float, some (.integer 1)⟩]

/-- Items that use a message, a count, and a flag that is not declared, in different orders. -/
def announceItems : List Arguments := [
  .ofInserts [("count", .integer 2), ("message", .string "hello")], .empty,
  .ofInserts [("urgent", .boolean true), ("count", .integer 3)]]

/-- A step that loops over the items, on a condition, which is passed on. -/
def announceStep : TaskStep where
  name := "announce-all"
  template := "announce"
  batch := some (.items announceItems)
  condition := some "true"

/-- The step passes the count, the message and the flag of each item, in the order in which the
items first use them, and loops over three objects. -/
theorem announceStep_loops :
    announceStep.IsBatch announceTemplate announceItems
      ∧ ∃ w, announceStep.toWorkflowStep announceTemplate = .ok w
        ∧ w.arguments = some (["count", "message", "urgent"].map fun name =>
          { name, value := some ("\x7b\x7bitem." ++ name ++ "\x7d\x7d") })
        ∧ w.withItems.map List.length = some 3 ∧ w.withParam = none
        ∧ w.condition = some "true" := by
  have h : announceStep.IsBatch announceTemplate announceItems := ⟨rfl, rfl, rfl⟩
  have hok : (announceStep.toWorkflowStep announceTemplate).isOk = true := rfl
  obtain ⟨w, hw⟩ := exists_eq_ok hok
  have harguments : w.arguments = some (itemParameters announceItems) := by
    obtain ⟨_, -, rfl⟩ := h.toWorkflowStep_eq_ok hw
    rfl
  obtain ⟨-, -, hstep⟩ := toWorkflowStep_batch h
  obtain ⟨-, ⟨objects, hobjects, hitems⟩, hparam, -, -, -, hcondition⟩ := hstep w hw
  refine ⟨h, w, hw, harguments, ?_, hparam, hcondition⟩
  rw [hobjects, Option.map_some, ← hitems.length_eq]
  rfl

end WorkflowTemplates
