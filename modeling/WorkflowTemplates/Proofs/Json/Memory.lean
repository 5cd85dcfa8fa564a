import WorkflowTemplates.Document.Basic
import WorkflowTemplates.Proofs.Json.RoundTrip

/-!
# Values in memory

A value that is read from memory, or from a copy that was set aside, is a node of itself
(`Json.toNode`): the two differ only in how containers end. Such a node has the value it is made
from (`value_toNode`), and a document that is made from a value is that value again
(`Document.toJson_ofJson`), if the objects of the value are in order. The object of members of
distinct names has just these members, in the order of their names (`ofMembers_perm`), so that it
does not matter in which order they are given (`ofMembers_congr`).
-/

namespace WorkflowTemplates

namespace Json

variable {closing : Closing} {name : String} {value v : Json} {members : List (String × Json)}

/-! ## Members in the order of their names -/

/-- What stands among members after one was put there by `Json.insert` is that one or was there
before. -/
theorem mem_insert {m : String × Json} (h : m ∈ insert name value members) :
    m = (name, value) ∨ m ∈ members := by
  induction members with
  | nil => exact .inl (List.mem_singleton.1 h)
  | cons n rest ih =>
    obtain ⟨other, v⟩ := n
    rw [insert] at h
    split at h
    · exact List.mem_cons.1 h
    split at h
    · exact (List.mem_cons.1 h).imp_right (List.mem_cons_of_mem _)
    · rcases List.mem_cons.1 h with rfl | h
      · exact .inr List.mem_cons_self
      · exact (ih h).imp_right (List.mem_cons_of_mem _)

/-- A member of a new name is put somewhere among the others (`Json.insert`), none of which it
replaces. -/
theorem insert_perm (h : name ∉ members.map (·.1)) :
    (insert name value members).Perm ((name, value) :: members) := by
  induction members with
  | nil => exact .refl _
  | cons m rest ih =>
    obtain ⟨other, v⟩ := m
    simp only [List.map_cons, List.mem_cons, not_or] at h
    rw [insert, if_neg h.1]
    split
    · exact .refl _
    · exact ((ih h.2).cons _).trans (.swap _ _ _)

/-- Members of new and distinct names are put somewhere among those that are there, none of which
they replace. -/
theorem foldl_insert_perm {sorted : List (String × Json)}
    (hnew : ∀ m ∈ members, m.1 ∉ sorted.map (·.1)) (hdistinct : (members.map (·.1)).Nodup) :
    (members.foldl (fun sorted m => insert m.1 m.2 sorted) sorted).Perm (members ++ sorted) := by
  induction members generalizing sorted with
  | nil => exact .refl _
  | cons m rest ih =>
    rw [List.map_cons, List.nodup_cons] at hdistinct
    have hm : (insert m.1 m.2 sorted).Perm (m :: sorted) :=
      insert_perm (hnew m List.mem_cons_self)
    have hrest : ∀ n ∈ rest, n.1 ∉ (insert m.1 m.2 sorted).map (·.1) := by
      intro n hn hmem
      rw [(hm.map (·.1)).mem_iff, List.map_cons, List.mem_cons] at hmem
      rcases hmem with heq | hmem
      · exact hdistinct.1 (heq ▸ List.mem_map_of_mem hn)
      · exact hnew n (List.mem_cons_of_mem _ hn) hmem
    rw [List.foldl_cons]
    exact (ih hrest hdistinct.2).trans ((hm.append_left rest).trans List.perm_middle)

/-- The object of members of distinct names (`ofMembers`) has just these members, in another order.
-/
theorem ofMembers_perm (h : (members.map (·.1)).Nodup) :
    ∃ sorted, ofMembers members = .object sorted ∧ sorted.Perm members := by
  have hnew : ∀ m ∈ members, m.1 ∉ ([] : List (String × Json)).map (·.1) :=
    fun _ _ => List.not_mem_nil
  exact ⟨_, rfl, by simpa using foldl_insert_perm hnew h⟩

/-- A member that is put among members in order of their names (`Json.insert`) keeps them in order.
-/
theorem insert_pairwise (h : members.Pairwise (·.1 < ·.1)) :
    (insert name value members).Pairwise (·.1 < ·.1) := by
  induction members with
  | nil => exact List.pairwise_singleton _ _
  | cons m rest ih =>
    obtain ⟨other, v⟩ := m
    rw [List.pairwise_cons] at h
    rw [insert]
    split
    · next hlt =>
      refine List.pairwise_cons.2 ⟨?_, List.pairwise_cons.2 h⟩
      rintro n (_ | ⟨_, hn⟩)
      · exact hlt
      · exact String.lt_trans hlt (h.1 n hn)
    split
    · next heq => exact List.pairwise_cons.2 ⟨fun n hn => heq ▸ h.1 n hn, h.2⟩
    · next hlt hne =>
      refine List.pairwise_cons.2 ⟨fun n hn => ?_, ih h.2⟩
      rcases mem_insert hn with rfl | hn
      · exact Std.lt_of_le_of_ne (String.not_lt.1 hlt) (Ne.symm hne)
      · exact h.1 n hn

/-- The members that `ofMembers` puts one by one among members in order are in order with them. -/
theorem foldl_insert_pairwise {sorted : List (String × Json)}
    (h : sorted.Pairwise (·.1 < ·.1)) :
    (members.foldl (fun sorted m => insert m.1 m.2 sorted) sorted).Pairwise (·.1 < ·.1) := by
  induction members generalizing sorted with
  | nil => exact h
  | cons m rest ih => exact ih (insert_pairwise h)

/-- The order in which members of distinct names are given to `ofMembers` does not matter: both
lists are sorted to the same one. -/
theorem ofMembers_congr {members' : List (String × Json)} (hperm : members.Perm members')
    (h : (members.map (·.1)).Nodup) : ofMembers members = ofMembers members' := by
  obtain ⟨sorted, hsorted, hmembers⟩ := ofMembers_perm h
  obtain ⟨sorted', hsorted', hmembers'⟩ := ofMembers_perm ((hperm.map (·.1)).nodup h)
  have hpairwise : sorted.Pairwise (·.1 < ·.1) := by
    rw [← Json.object.inj hsorted]
    exact foldl_insert_pairwise List.Pairwise.nil
  have hpairwise' : sorted'.Pairwise (·.1 < ·.1) := by
    rw [← Json.object.inj hsorted']
    exact foldl_insert_pairwise List.Pairwise.nil
  have heq : sorted = sorted' :=
    (hmembers.trans (hperm.trans hmembers'.symm)).eq_of_pairwise
      (fun a b _ _ hab hba => absurd hba (String.lt_asymm hab)) hpairwise hpairwise'
  rw [hsorted, hsorted', heq]

/-! ## Nodes of values -/

theorem Closing.error?_memory : Closing.memory.error? = none := rfl

theorem Closing.error?_setAside : Closing.setAside.error? = none := rfl

mutual

/-- A value as a node without places, whose containers all end in the same way `closing`. -/
def toNode (closing : Closing) : Json → Node
  | .null => .scalar none .null none
  | .bool b => .scalar none (.bool b) none
  | .number n => .scalar none (.number n) none
  | .string s => .scalar none (.string s) none
  | .array items => .array none (itemNodes closing items) closing
  | .object members => .object none (memberNodes closing members) closing

/-- The items of an array as nodes (`toNode`). -/
def itemNodes (closing : Closing) : List Json → List Node
  | [] => []
  | v :: rest => toNode closing v :: itemNodes closing rest

/-- The members of an object with nodes of their values (`toNode`), under names that have a text. -/
def memberNodes (closing : Closing) : List (String × Json) → List Member
  | [] => []
  | (k, v) :: rest => (⟨.ok k, none⟩, toNode closing v) :: memberNodes closing rest

end

mutual

/-- A value in memory (`Node.ofJson`) is its node whose containers end as in memory. -/
theorem ofJson_eq : ∀ v : Json, Node.ofJson v = v.toNode .memory
  | .null | .bool _ | .number _ | .string _ => by simp only [Node.ofJson, toNode]
  | .array items => by simp only [Node.ofJson, toNode, ofItems_eq items]
  | .object members => by simp only [Node.ofJson, toNode, nodeOfMembers_eq members]

theorem ofItems_eq : ∀ items : List Json, Node.ofItems items = itemNodes .memory items
  | [] => by simp only [Node.ofItems, itemNodes]
  | v :: rest => by simp only [Node.ofItems, itemNodes, ofJson_eq v, ofItems_eq rest]

theorem nodeOfMembers_eq :
    ∀ members : List (String × Json), Node.ofMembers members = memberNodes .memory members
  | [] => by simp only [Node.ofMembers, memberNodes]
  | (_, v) :: rest => by
    simp only [Node.ofMembers, memberNodes, ofJson_eq v, nodeOfMembers_eq rest]

end

mutual

/-- A copy of a node of a value that is set aside (`Node.detached`) is the value's node whose
containers end as `Closing.setAside`. -/
theorem detached_toNode : ∀ v : Json, (v.toNode closing).detached = v.toNode .setAside
  | .null | .bool _ | .number _ | .string _ => by simp only [toNode, Node.detached]
  | .array items => by simp only [toNode, Node.detached, detachedItems_itemNodes items]
  | .object members => by simp only [toNode, Node.detached, detachedMembers_memberNodes members]

theorem detachedItems_itemNodes : ∀ items : List Json,
    Node.detachedItems (itemNodes closing items) = itemNodes .setAside items
  | [] => by simp only [itemNodes, Node.detachedItems]
  | v :: rest => by
    simp only [itemNodes, Node.detachedItems, detached_toNode v, detachedItems_itemNodes rest]

theorem detachedMembers_memberNodes : ∀ members : List (String × Json),
    Node.detachedMembers (memberNodes closing members) = memberNodes .setAside members
  | [] => by simp only [memberNodes, Node.detachedMembers]
  | (_, v) :: rest => by
    simp only [memberNodes, Node.detachedMembers, detached_toNode v,
      detachedMembers_memberNodes rest]

end

/-- A value in memory has no errors (`Node.firstError`), however few containers may stand inside
each other. -/
theorem firstError_memory (limit : Nat) (v : Json) :
    (v.toNode .memory).firstError limit = none := by
  cases v <;> simp only [toNode, Node.firstError]

mutual

/-- The node of a value in order has the value, whatever way its containers end in. -/
theorem value_toNode : ∀ {v : Json}, v.Ordered → (v.toNode closing).value = v
  | .null, _ | .bool _, _ | .number _, _ | .string _, _ => by simp only [toNode, Node.value]
  | .array items, h => by
    rw [Ordered] at h
    rw [toNode, Node.value, itemValues_itemNodes h]
  | .object members, h => by
    rw [Ordered] at h
    rw [toNode, Node.value, memberValues_memberNodes h.2, ofMembers_eq h.1]

theorem itemValues_itemNodes : ∀ {items : List Json}, OrderedItems items →
    Node.itemValues (itemNodes closing items) = items
  | [], _ => by simp only [itemNodes, Node.itemValues]
  | v :: rest, h => by
    rw [OrderedItems] at h
    rw [itemNodes, Node.itemValues, value_toNode h.1, itemValues_itemNodes h.2]

theorem memberValues_memberNodes : ∀ {members : List (String × Json)}, OrderedMembers members →
    Node.memberValues (memberNodes closing members) = members
  | [], _ => by simp only [memberNodes, Node.memberValues]
  | (_, v) :: rest, h => by
    rw [OrderedMembers] at h
    rw [memberNodes, Node.memberValues, value_toNode h.1, memberValues_memberNodes h.2]

end

/-- Every item of an array in order is in order (`Ordered`). -/
theorem ordered_of_mem {items : List Json} (h : OrderedItems items) (hv : v ∈ items) :
    v.Ordered := by
  induction items with
  | nil => cases hv
  | cons first rest ih =>
    rw [OrderedItems] at h
    rcases List.mem_cons.1 hv with rfl | hv
    · exact h.1
    · exact ih h.2 hv

/-- The nodes of items are those of the items one by one (`List.map`). -/
theorem itemNodes_eq_map (items : List Json) :
    itemNodes closing items = items.map (toNode closing) := by
  induction items with
  | nil => rw [itemNodes, List.map_nil]
  | cons v rest ih => rw [itemNodes, List.map_cons, ih]

end Json

namespace Document

open Json (Ordered OrderedItems OrderedMembers)

mutual

/-- A document that is made from a value in order (`Document.ofJson`) is the value again
(`Document.toJson`). -/
theorem toJson_ofJson : ∀ {v : Json}, v.Ordered → (ofJson v).toJson = v
  | .null, _ | .bool _, _ | .number _, _ | .string _, _ => by simp only [ofJson, toJson]
  | .array items, h => by
    rw [Ordered] at h
    rw [ofJson, toJson, toItems_ofItems h]
  | .object members, h => by
    rw [Ordered] at h
    rw [ofJson, toJson, toMembers_ofMembers h.2, Json.ofMembers_eq h.1]

theorem toItems_ofItems : ∀ {items : List Json}, OrderedItems items →
    toItems (ofItems items) = items
  | [], _ => by simp only [ofItems, toItems]
  | v :: rest, h => by
    rw [OrderedItems] at h
    rw [ofItems, toItems, toJson_ofJson h.1, toItems_ofItems h.2]

theorem toMembers_ofMembers : ∀ {members : List (String × Json)}, OrderedMembers members →
    toMembers (ofMembers members) = members
  | [], _ => by simp only [ofMembers, toMembers]
  | (_, v) :: rest, h => by
    rw [OrderedMembers] at h
    rw [ofMembers, toMembers, toJson_ofJson h.1, toMembers_ofMembers h.2]

end

/-- The fields of a record; other documents have none. -/
def fields : Document → List (String × Document)
  | .record fields => fields
  | _ => []

/-- The items of a list as JSON values are those of the items one by one (`List.map`). -/
theorem toItems_eq_map (items : List Document) : toItems items = items.map toJson := by
  induction items with
  | nil => rw [toItems, List.map_nil]
  | cons d rest ih => rw [toItems, List.map_cons, ih]

/-- The fields of a record as members are those of the fields one by one (`List.map`). -/
theorem toMembers_eq_map (fields : List (String × Document)) :
    toMembers fields = fields.map fun f => (f.1, f.2.toJson) := by
  induction fields with
  | nil => rw [toMembers, List.map_nil]
  | cons f rest ih => rw [toMembers, List.map_cons, ih]

/-- The members that are made of fields have the names of the fields. -/
theorem names_toMembers (fields : List (String × Document)) :
    (toMembers fields).map (·.1) = fields.map (·.1) := by
  rw [toMembers_eq_map, List.map_map]
  rfl

end Document

end WorkflowTemplates
