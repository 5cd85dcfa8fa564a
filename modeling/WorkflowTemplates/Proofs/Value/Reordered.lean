import Mathlib.Data.List.Nodup
import Mathlib.Data.List.Perm.Basic
import WorkflowTemplates.Proofs.Json.Memory
import WorkflowTemplates.Proofs.Traversal
import WorkflowTemplates.Proofs.Value.Packed
import WorkflowTemplates.Source.Default

/-!
# Dictionaries in another order

A literal of plain data, whose dictionaries have distinct strings as keys (`Portable`), has a JSON
value in order. If the entries of any of its dictionaries are put into another order, at any depth
(`Reordered`), it keeps this value: reordering is a run of steps, each of which is looked at by
itself. As the default of a parameter of a custom type a literal becomes the packed text of its JSON
value, and packed texts tell values apart; so two literals become the same text exactly if they have
the same JSON value (`default_text_reordered`).
-/

namespace WorkflowTemplates

namespace Literal

/-! ## Literals of plain data -/

mutual

/-- A literal of plain data: strings, integers, truth values, no value, lists, and dictionaries
under distinct strings. -/
def Portable : Literal → Prop
  | string _ | integer _ | boolean _ | nothing => True
  | list items => PortableItems items
  | dict entries => (entries.map (·.1)).Nodup ∧ PortableEntries entries
  | float _ | complex _ | call .. => False

/-- `Portable` of every item of a list, by recursion over the list. -/
def PortableItems : List Literal → Prop
  | [] => True
  | l :: rest => Portable l ∧ PortableItems rest

/-- `Portable` of every value of a dictionary, under strings, by recursion over the entries. -/
def PortableEntries : List (Literal × Literal) → Prop
  | [] => True
  | (k, l) :: rest => (∃ s, k = string s) ∧ Portable l ∧ PortableEntries rest

end

variable {l l' : Literal} {items : List Literal} {entries entries' : List (Literal × Literal)}

/-- The recursion of `PortableItems`, item by item. -/
theorem portableItems_iff : PortableItems items ↔ ∀ l ∈ items, l.Portable := by
  induction items with
  | nil => simp [PortableItems]
  | cons l rest ih => simp [PortableItems, ih]

/-- The recursion of `PortableEntries`, entry by entry. -/
theorem portableEntries_iff :
    PortableEntries entries ↔ ∀ e ∈ entries, (∃ s, e.1 = string s) ∧ e.2.Portable := by
  induction entries with
  | nil => simp [PortableEntries]
  | cons e rest ih =>
    obtain ⟨k, l⟩ := e
    simp [PortableEntries, ih, and_assoc]

/-! ## JSON values of parts -/

/-- The member that an entry of a dictionary stands for, if its key is a scalar that has a text. -/
def entryToJson (e : Literal × Literal) : Except LiteralFault (String × Json) :=
  match text? e.1 with
  | none => .error .keyNotScalar
  | some name => (toJson e.2).map fun v => (name, v)

/-- The JSON values of items are those of each item, or the first fault (`List.mapM`). -/
theorem itemsToJson_eq (items : List Literal) : itemsToJson items = items.mapM toJson := by
  induction items with
  | nil => rfl
  | cons l rest ih =>
    rw [itemsToJson, List.mapM_cons, ih]
    rfl

/-- The members of entries are those of each entry (`entryToJson`), or the first fault. -/
theorem entriesToJson_eq (entries : List (Literal × Literal)) :
    entriesToJson entries = entries.mapM entryToJson := by
  induction entries with
  | nil => rfl
  | cons e rest ih =>
    obtain ⟨k, l⟩ := e
    rw [entriesToJson, List.mapM_cons, ih, entryToJson]
    cases text? k with
    | none => rfl
    | some name =>
      cases toJson l with
      | error fault => rfl
      | ok v => rfl

/-- The member of an entry under a string has the string as its name, and the JSON value of the
entry. -/
theorem entryToJson_string {s : String} {m : String × Json}
    (h : entryToJson (string s, l) = .ok m) : m.1 = s ∧ l.toJson = .ok m.2 := by
  obtain ⟨v, hv, rfl⟩ := map_eq_ok.1 h
  exact ⟨rfl, hv⟩

/-- Entries under distinct strings stand for members of distinct names, so no member replaces
another. -/
theorem names_nodup {members : List (String × Json)} (h : (dict entries).Portable)
    (hmembers : List.Forall₂ (fun e m => entryToJson e = .ok m) entries members) :
    (members.map (·.1)).Nodup := by
  have hnames : entries.map (·.1) = (members.map (·.1)).map string := by
    have hkeys := portableEntries_iff.1 h.2
    induction hmembers with
    | nil => rfl
    | @cons e m entries members hm _ ih =>
      obtain ⟨k, l⟩ := e
      obtain ⟨⟨s, hs⟩, -⟩ := hkeys _ List.mem_cons_self
      dsimp only at hs
      subst hs
      have hrest := ih ⟨(List.nodup_cons.1 h.1).2, h.2.2.2⟩
        fun e he => hkeys e (List.mem_cons_of_mem _ he)
      rw [List.map_cons, List.map_cons, List.map_cons, hrest, (entryToJson_string hm).1]
  exact List.Nodup.of_map string (hnames ▸ h.1)

mutual

/-- A literal of plain data has a JSON value in order, whose numbers are integers, so it reads back
(`Portable`). -/
theorem Portable.exists_json : ∀ {l : Literal}, l.Portable →
    ∃ v, l.toJson = .ok v ∧ v.Ordered ∧ v.NumbersReadBack
  | string _, _ | boolean _, _ | nothing, _ | integer _, _ => ⟨_, rfl, trivial, trivial⟩
  | list items, h => by
    obtain ⟨values, hvalues, ordered, numbers⟩ := exists_jsonItems items h
    rw [toJson, hvalues]
    exact ⟨_, rfl, ordered, numbers⟩
  | dict entries, h => by
    obtain ⟨members, hmembers, hall⟩ := exists_jsonEntries entries h.2
    have hnodup := names_nodup h (mapM_eq_ok.1 (entriesToJson_eq entries ▸ hmembers))
    obtain ⟨sorted, hsorted, hperm⟩ := Json.ofMembers_perm hnodup
    have hpairwise : sorted.Pairwise (·.1 < ·.1) := by
      rw [← Json.object.inj hsorted]
      exact Json.foldl_insert_pairwise List.Pairwise.nil
    rw [toJson, hmembers]
    refine ⟨_, rfl, ?_⟩
    rw [hsorted]
    refine ⟨⟨hpairwise, Json.orderedMembers_iff.2 fun m hm => ?_⟩,
      Json.numbersReadBackMembers_iff.2 fun m hm => ?_⟩
    · exact (hall m (hperm.mem_iff.1 hm)).1
    · exact (hall m (hperm.mem_iff.1 hm)).2
  | float _, h | complex _, h | call .., h => nomatch h

/-- Items of plain data have JSON values in order (`OrderedItems`). -/
theorem exists_jsonItems : ∀ (items : List Literal), PortableItems items →
    ∃ values, itemsToJson items = .ok values ∧ Json.OrderedItems values
      ∧ Json.NumbersReadBackItems values
  | [], _ => ⟨[], rfl, trivial, trivial⟩
  | _ :: items, h => by
    obtain ⟨v, hv, ordered, numbers⟩ := h.1.exists_json
    obtain ⟨values, hvalues, hordered, hnumbers⟩ := exists_jsonItems items h.2
    exact ⟨v :: values, bind_eq_ok.2 ⟨_, hv, bind_eq_ok.2 ⟨_, hvalues, rfl⟩⟩,
      ⟨ordered, hordered⟩, ⟨numbers, hnumbers⟩⟩

/-- Entries of plain data have members with values in order; the object puts the members themselves
in order. -/
theorem exists_jsonEntries : ∀ (entries : List (Literal × Literal)), PortableEntries entries →
    ∃ members, entriesToJson entries = .ok members
      ∧ ∀ m ∈ members, m.2.Ordered ∧ m.2.NumbersReadBack
  | [], _ => ⟨[], rfl, nofun⟩
  | (_, _) :: entries, ⟨⟨s, hk⟩, hl, hrest⟩ => by
    obtain ⟨v, hv, hordered⟩ := hl.exists_json
    obtain ⟨members, hmembers, hall⟩ := exists_jsonEntries entries hrest
    subst hk
    exact ⟨(s, v) :: members, bind_eq_ok.2 ⟨_, hv, bind_eq_ok.2 ⟨_, hmembers, rfl⟩⟩,
      List.forall_mem_cons.2 ⟨hordered, hall⟩⟩

end

/-! ## Another order -/

/-- A literal whose dictionaries, at any depth, are put into another order step by step: the entries
of the whole, or an item of a list, or a value of a dictionary. -/
inductive Reordered : Literal → Literal → Prop
  | refl (l : Literal) : Reordered l l
  | trans {l l' l'' : Literal} (first : Reordered l l') (second : Reordered l' l'') :
    Reordered l l''
  | entries {entries entries' : List (Literal × Literal)} (h : entries.Perm entries') :
    Reordered (dict entries) (dict entries')
  | item {l l' : Literal} (before after : List Literal) (h : Reordered l l') :
    Reordered (list (before ++ l :: after)) (list (before ++ l' :: after))
  | value {l l' : Literal} (before : List (Literal × Literal)) (key : Literal)
      (after : List (Literal × Literal)) (h : Reordered l l') :
    Reordered (dict (before ++ (key, l) :: after)) (dict (before ++ (key, l') :: after))

/-- Plain data in another order is plain data (`Portable`): the keys stay distinct. -/
theorem Reordered.portable (h : Reordered l l') (hl : l.Portable) : l'.Portable := by
  induction h with
  | refl l => exact hl
  | trans _ _ ih ih' => exact ih' (ih hl)
  | entries hperm =>
    refine ⟨(hperm.map (·.1)).nodup hl.1, portableEntries_iff.2 fun e he => ?_⟩
    exact portableEntries_iff.1 hl.2 e (hperm.mem_iff.2 he)
  | @item l l' before after _ ih =>
    have hitems := portableItems_iff.1 hl
    refine portableItems_iff.2 fun m hm => ?_
    rcases List.mem_append.1 hm with hm | hm
    · exact hitems m (List.mem_append_left _ hm)
    rcases List.mem_cons.1 hm with rfl | hm
    · exact ih (hitems l (by simp))
    · exact hitems m (by simp [hm])
  | @value l l' before key after _ ih =>
    have hentries := portableEntries_iff.1 hl.2
    have hkeys : (before ++ (key, l') :: after).map (·.1)
        = (before ++ (key, l) :: after).map (·.1) := by simp
    refine ⟨hkeys ▸ hl.1, portableEntries_iff.2 fun e he => ?_⟩
    rcases List.mem_append.1 he with he | he
    · exact hentries e (List.mem_append_left _ he)
    rcases List.mem_cons.1 he with rfl | he
    · obtain ⟨hkey, hvalue⟩ := hentries (key, l) (by simp)
      exact ⟨hkey, ih hvalue⟩
    · exact hentries e (by simp [he])

/-- Entries in another order make the same object, as its members are put in order of their names
(`Portable`). -/
theorem toJson_dict_perm (hperm : entries.Perm entries') (h : (dict entries).Portable) :
    (dict entries').toJson = (dict entries).toJson := by
  obtain ⟨members, hmembers, -⟩ := exists_jsonEntries entries h.2
  have heach := mapM_eq_ok.1 (entriesToJson_eq entries ▸ hmembers)
  obtain ⟨members', heach', hperm'⟩ := List.perm_comp_forall₂ hperm.symm heach
  have hmembers' : entriesToJson entries' = .ok members' := by
    rw [entriesToJson_eq]
    exact mapM_eq_ok.2 heach'
  rw [toJson, toJson, hmembers, hmembers', Except.map, Except.map,
    Json.ofMembers_congr hperm'.symm (names_nodup h heach)]

/-- **Plain data in another order has the same JSON value**, by induction over the steps
(`Reordered`). -/
theorem Reordered.toJson_eq (h : Reordered l l') (hl : l.Portable) : l'.toJson = l.toJson := by
  induction h with
  | refl l => rfl
  | trans first _ ih ih' => exact (ih' (first.portable hl)).trans (ih hl)
  | entries hperm => exact toJson_dict_perm hperm hl
  | @item l l' before after _ ih =>
    have hitem := ih (portableItems_iff.1 hl l (by simp))
    simp only [toJson, itemsToJson_eq, List.mapM_append, List.mapM_cons, hitem]
  | @value l l' before key after _ ih =>
    have hvalue := ih (portableEntries_iff.1 hl.2 (key, l) (by simp)).2
    simp only [toJson, entriesToJson_eq, List.mapM_append, List.mapM_cons, entryToJson, hvalue]

/-- A literal other than no value stays one in any order, so a default stays a default. -/
theorem Reordered.ne_nothing (h : Reordered l l') (hl : l ≠ nothing) : l' ≠ nothing := by
  induction h with
  | refl l => exact hl
  | trans _ _ ih ih' => exact ih' (ih hl)
  | entries | item | value => exact nofun

end Literal

/-! ## Defaults -/

open Literal (Portable Reordered)

variable {l l' : Literal} {name type text : String} {v : Json}

/-- The text that a literal becomes as the default of a parameter of a custom type, under the name
of the parameter. -/
def Default.HasText (name type : String) (l : Literal) (text : String) : Prop :=
  ∃ value, Default.ofLiteral l = .ok value
    ∧ Declaration.encodeDefault ⟨name, .custom type, value⟩ = .ok (some (.literal text))

/-- A literal of plain data other than no value is a default whose JSON value is its own
(`Portable`). -/
theorem Default.ofLiteral_portable (h : l.Portable) (hne : l ≠ .nothing) (hv : l.toJson = .ok v) :
    ∃ value, Default.ofLiteral l = .ok (some value) ∧ value.isReference = false
      ∧ value.toJson = .ok v := by
  cases l with
  | string _ | integer _ | boolean _ =>
    cases hv
    exact ⟨_, rfl, rfl, rfl⟩
  | nothing => exact absurd rfl hne
  | list items | dict entries =>
    refine ⟨.json v, ?_, rfl, rfl⟩
    unfold Default.ofLiteral
    dsimp only
    rw [hv]
  | float _ | complex _ | call _ _ => cases h

/-- **The default is the packed text of the JSON value** (`packed`), and no other text. -/
theorem Default.hasText_iff (h : l.Portable) (hne : l ≠ .nothing) (hv : l.toJson = .ok v) :
    Default.HasText name type l text ↔ text = packed v := by
  obtain ⟨value, hvalue, hreference, hjson⟩ := Default.ofLiteral_portable h hne hv
  have hrow : categoryFor value (some (.custom type)) = .packed := by
    rw [categoryFor, hreference]
    rfl
  have hencode : Declaration.encodeDefault ⟨name, .custom type, some value⟩
      = .ok (some (.literal (packed v))) := by
    rw [Declaration.encodeDefault]
    dsimp only
    rw [encode_eq hreference, hrow, literalIn, hjson]
    rfl
  constructor
  · rintro ⟨value', hvalue', htext⟩
    rw [hvalue] at hvalue'
    cases hvalue'
    rw [hencode] at htext
    cases htext
    rfl
  · rintro rfl
    exact ⟨_, hvalue, hencode⟩

/-- **Defaults are told by their JSON values, in whatever order they are written.** A literal of
plain data other than no value has a JSON value and becomes a text as the default of a parameter of
a custom type. Every literal that comes of it by putting the entries of dictionaries into another
order has the same value and becomes the same text, and a literal of plain data becomes this text
only if it has this value. -/
theorem default_text_reordered (h : l.Portable) (hne : l ≠ .nothing) (type : String) :
    ∃ v text, l.toJson = .ok v ∧ (∀ name, Default.HasText name type l text)
      ∧ (∀ l', Reordered l l' → l'.toJson = .ok v ∧ ∀ name, Default.HasText name type l' text)
      ∧ ∀ l', l'.Portable → l' ≠ .nothing → ∀ name type' text',
        Default.HasText name type' l' text' → (text' = text ↔ l'.toJson = .ok v) := by
  obtain ⟨v, hv, ordered, numbers⟩ := h.exists_json
  refine ⟨v, packed v, hv, fun name => (Default.hasText_iff h hne hv).2 rfl, fun l' hl' => ?_,
    fun l' h' hne' name type' text' htext => ?_⟩
  · have hv' : l'.toJson = .ok v := (hl'.toJson_eq h).trans hv
    exact ⟨hv', fun name => (Default.hasText_iff (hl'.portable h) (hl'.ne_nothing hne) hv').2 rfl⟩
  · obtain ⟨v', hv', ordered', numbers'⟩ := h'.exists_json
    obtain rfl := (Default.hasText_iff h' hne' hv').1 htext
    rw [packed_inj ordered' ordered numbers' numbers, hv']
    exact ⟨fun heq => congrArg Except.ok heq, Except.ok.inj⟩

/-- A dictionary inside a list of a dictionary. -/
def sizesLiteral : Literal :=
  .dict [(.string "sizes", .list [.dict [(.string "w", .integer 2), (.string "h", .nothing)]]),
    (.string "", .boolean true)]

/-- The same dictionaries in another order. -/
def sizesReordered : Literal :=
  .dict [(.string "", .boolean true),
    (.string "sizes", .list [.dict [(.string "h", .nothing), (.string "w", .integer 2)]])]

/-- Both are given to scripts as the same text, under different names. -/
theorem sizes_become_same_text :
    ∃ text, Default.HasText "p" "dict" sizesLiteral text
      ∧ Default.HasText "q" "dict" sizesReordered text := by
  have hportable : sizesLiteral.Portable := by
    simp [sizesLiteral, Literal.Portable, Literal.PortableItems, Literal.PortableEntries]
  have hreordered : Reordered sizesLiteral sizesReordered :=
    .trans (.value [] _ _ (.item [] [] (.entries (.swap _ _ _)))) (.entries (.swap _ _ _))
  obtain ⟨v, text, -, htext, hall, -⟩ := default_text_reordered hportable nofun "dict"
  exact ⟨text, htext "p", (hall _ hreordered).2 "q"⟩

end WorkflowTemplates
