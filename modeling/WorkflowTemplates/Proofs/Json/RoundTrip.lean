import WorkflowTemplates.Proofs.Json.Numbers
import WorkflowTemplates.Proofs.Json.Strings

/-!
# Reading JSON values back

The compact text of a value reads back as the value (`read_text`), if the value is well-formed: its
objects are ordered, it is not too deep, and its numbers read back alone. The induction goes over
the value: what is written for it is read off the front of any text as a node that stands for the
value (`Node.Reads`), whatever place it starts from. The node is there at any depth, so values that
are too deep to be read are still told apart by their texts (`eq_of_text_eq`).
-/

namespace WorkflowTemplates.Json

open Text (Stops stops_nil stops_cons)

mutual

/-- Every number of a value is read back from its own text (`Number.ReadsBack`). -/
def NumbersReadBack : Json → Prop
  | .number n => n.ReadsBack
  | .array items => NumbersReadBackItems items
  | .object members => NumbersReadBackMembers members
  | _ => True

/-- The condition `NumbersReadBack` for every item of an array. -/
def NumbersReadBackItems : List Json → Prop
  | [] => True
  | v :: rest => NumbersReadBack v ∧ NumbersReadBackItems rest

/-- The condition `NumbersReadBack` for the value of every member. -/
def NumbersReadBackMembers : List (String × Json) → Prop
  | [] => True
  | (_, v) :: rest => NumbersReadBack v ∧ NumbersReadBackMembers rest

end

/-- The condition `NumbersReadBackMembers` holds member by member. -/
theorem numbersReadBackMembers_iff {members : List (String × Json)} :
    NumbersReadBackMembers members ↔ ∀ m ∈ members, m.2.NumbersReadBack := by
  induction members with
  | nil => simp [NumbersReadBackMembers]
  | cons m rest ih => simp [NumbersReadBackMembers, ih]

/-! ## Objects in order -/

/-- The condition `OrderedMembers` holds member by member. -/
theorem orderedMembers_iff {members : List (String × Json)} :
    OrderedMembers members ↔ ∀ m ∈ members, m.2.Ordered := by
  induction members with
  | nil => simp [OrderedMembers]
  | cons m rest ih => simp [OrderedMembers, ih]

/-- A member whose name is behind all others is put at the end by `Json.insert`. -/
theorem insert_last {name : String} {value : Json} {members : List (String × Json)}
    (h : ∀ m ∈ members, m.1 < name) : insert name value members = members ++ [(name, value)] := by
  induction members with
  | nil => rfl
  | cons m rest ih =>
    obtain ⟨other, v⟩ := m
    have hlt : other < name := h _ List.mem_cons_self
    have hne : name ≠ other := fun e => String.lt_irrefl other (e ▸ hlt)
    rw [insert, if_neg (String.lt_asymm hlt), if_neg hne,
      ih fun m hm => h m (List.mem_cons_of_mem _ hm)]
    rfl

/-- Members in strict order of their names are put one behind the other. -/
theorem foldl_insert {members sorted : List (String × Json)}
    (h : (sorted ++ members).Pairwise (·.1 < ·.1)) :
    members.foldl (fun sorted m => insert m.1 m.2 sorted) sorted = sorted ++ members := by
  induction members generalizing sorted with
  | nil => rw [List.foldl_nil, List.append_nil]
  | cons m rest ih =>
    have hlast : ∀ n ∈ sorted, n.1 < m.1 := fun n hn =>
      (List.pairwise_append.1 h).2.2 n hn m List.mem_cons_self
    rw [List.foldl_cons, insert_last hlast, ih (by rwa [List.append_assoc, List.singleton_append]),
      List.append_assoc]
    rfl

/-- Members in strict order of their names make the object of themselves (`ofMembers`). -/
theorem ofMembers_eq {members : List (String × Json)} (h : members.Pairwise (·.1 < ·.1)) :
    ofMembers members = .object members := by
  rw [ofMembers, foldl_insert (by rwa [List.nil_append]), List.nil_append]

/-! ## Nodes that stand for values -/

/-- The node `n` was read to its end and stands for the value `v`: it has no error as deep as the
value is. -/
structure Node.Reads (n : Node) (v : Json) : Prop where
  unbroken : n.break? = none
  value : n.value = v
  sound : ∀ limit, v.depth ≤ limit → n.firstError limit = none

/-- The nodes of an array that was read to its end stand for its items. -/
structure Node.ReadsItems (nodes : List Node) (items : List Json) : Prop where
  values : itemValues nodes = items
  sound : ∀ limit, depthItems items ≤ limit → firstItemError limit nodes = none

/-- The nodes of an object that was read to its end stand for its members. -/
structure Node.ReadsMembers (nodes : List (Name × Node)) (members : List (String × Json)) :
    Prop where
  values : memberValues nodes = members
  sound : ∀ limit, depthMembers members ≤ limit → firstMemberError limit nodes = none

namespace Node

/-- A value without parts stands for itself, wherever it starts and stops (`Reads`). -/
theorem reads_scalar (s : Scalar) (start stop : Option Position) :
    (scalar start s stop).Reads (scalar start s stop).value where
  unbroken := rfl
  value := rfl
  sound _ _ := by rw [firstError]

/-- An array that closed stands for the array of what its items stand for (`ReadsItems`). -/
theorem ReadsItems.array {nodes : List Node} {items : List Json} (h : ReadsItems nodes items)
    (start : Option Position) (stop : Position) :
    (Node.array start nodes (.text stop)).Reads (.array items) where
  unbroken := rfl
  value := by rw [value, h.values]
  sound limit hl := by
    rw [depth] at hl
    cases limit with
    | zero => omega
    | succ limit =>
      simp only [firstError, h.sound limit (by omega)]
      rfl

/-- An object that closed stands for the object of what its members stand for, if they are in order
(`ReadsMembers`). -/
theorem ReadsMembers.object {nodes : List (Name × Node)} {members : List (String × Json)}
    (h : ReadsMembers nodes members) (ordered : members.Pairwise (·.1 < ·.1))
    (start : Option Position) (stop : Position) :
    (Node.object start nodes (.text stop)).Reads (.object members) where
  unbroken := rfl
  value := by rw [value, h.values, ofMembers_eq ordered]
  sound limit hl := by
    rw [depth] at hl
    cases limit with
    | zero => omega
    | succ limit =>
      simp only [firstError, h.sound limit (by omega)]
      rfl

/-- No nodes stand for no items (`ReadsItems`). -/
theorem readsItems_nil : ReadsItems [] [] where
  values := by rw [itemValues]
  sound _ _ := by rw [firstItemError]

/-- One more node stands for one more item, if it `Reads` it. -/
theorem ReadsItems.cons {n : Node} {v : Json} {nodes : List Node} {items : List Json}
    (hn : n.Reads v) (h : ReadsItems nodes items) : ReadsItems (n :: nodes) (v :: items) where
  values := by rw [itemValues, hn.value, h.values]
  sound limit hl := by
    rw [depthItems] at hl
    rw [firstItemError, hn.sound limit (by omega), h.sound limit (by omega)]
    rfl

/-- No nodes stand for no members (`ReadsMembers`). -/
theorem readsMembers_nil : ReadsMembers [] [] where
  values := by rw [memberValues]
  sound _ _ := by rw [firstMemberError]

/-- One more node stands for one more member, if it `Reads` its value. -/
theorem ReadsMembers.cons {n : Node} {v : Json} {nodes : List (Name × Node)}
    {members : List (String × Json)} (hn : n.Reads v) (h : ReadsMembers nodes members)
    (name : String) (behind : Option Position) :
    ReadsMembers ((⟨.ok name, behind⟩, n) :: nodes) ((name, v) :: members) where
  values := by rw [memberValues, hn.value, h.values]
  sound limit hl := by
    rw [depthMembers] at hl
    rw [firstMemberError, hn.sound limit (by omega), h.sound limit (by omega)]
    rfl

end Node

/-! ## Values without parts -/

/-- No blanks are skipped where none stand (`Cursor.skipBlanks`). -/
theorem skipBlanks_eq {s : List Char} (h : Stops isBlank s) (p : Position) :
    Cursor.skipBlanks ⟨s, p⟩ = ⟨s, p⟩ := by
  cases s with
  | nil => rfl
  | cons c t =>
    rw [Cursor.skipBlanks, Cursor.skipBlanks.go, h c t rfl]
    rfl

/-- A number that is read starts with a minus sign or a digit. -/
theorem readNumber_start {t : List Char} {r : Number × List Char} (h : readNumber t = .ok r) :
    ∃ c s, t = c :: s ∧ (c = '-' ∨ Text.isDigit c = true) := by
  unfold readNumber at h
  split at h
  · exact ⟨_, _, rfl, .inl rfl⟩
  cases t with
  | nil => cases h
  | cons c s =>
    refine ⟨c, s, rfl, .inr ?_⟩
    cases hc : Text.isDigit c with
    | true => rfl
    | false =>
      rw [readDigits, (stops_cons hc s).takeWhile] at h
      cases h

/-- The text of a number that reads back (`Number.ReadsBack`) starts with a minus sign or a digit.
-/
theorem Number.ReadsBack.start {n : Number} (h : n.ReadsBack) :
    ∃ c s, n.text = c :: s ∧ (c = '-' ∨ Text.isDigit c = true) := by
  have hread := readNumber_text h (stops_nil isNumberPart)
  rw [List.append_nil] at hread
  exact readNumber_start hread

/-- A minus sign or a digit is none of the other characters with which values start or end, so the
readers take it for the start of a number. -/
theorem numberStart_ne {c d : Char} (h : c = '-' ∨ Text.isDigit c = true)
    (hd : d ∈ ['"', 'n', 't', 'f', '[', ']', '{', '}', ' ', '\n', '\t', '\r']) : c ≠ d := by
  have hall : ∀ d ∈ ['"', 'n', 't', 'f', '[', ']', '{', '}', ' ', '\n', '\t', '\r'],
      d ≠ '-' ∧ Text.isDigit d = false := Text.forall_mem_of_all (by decide)
  obtain ⟨hminus, hdigit⟩ := hall d hd
  rintro rfl
  rcases h with h | h
  · exact hminus h
  · rw [hdigit] at h
    cases h

/-- A number that reads back is read at the cursor (`readScalar`), in front of anything with which
it does not go on. -/
theorem readScalar_number {n : Number} (hn : n.ReadsBack) {rest : List Char}
    (h : EndsNumber rest) (p : Position) :
    ∃ q, readScalar ⟨n.text ++ rest, p⟩ = .value (.number n) ⟨rest, q⟩ := by
  have hread := readNumber_text hn h
  obtain ⟨c, s, hs, hc⟩ := hn.start
  rw [hs] at hread ⊢
  unfold readScalar
  dsimp only [List.cons_append] at hread ⊢
  rw [if_neg (numberStart_ne hc (by decide)), if_neg (numberStart_ne hc (by decide)),
    if_neg (numberStart_ne hc (by decide)), if_neg (numberStart_ne hc (by decide)),
    if_pos (by rcases hc with rfl | hc <;> simp [*]), readNumberAt, hread]
  exact ⟨_, rfl⟩

/-- A written string is read at the cursor behind its opening quote (`readStringAt`). -/
theorem readStringAt_content (s : String) (rest : List Char) (p : Position) :
    ∃ q, readStringAt ⟨s.toList.flatMap escapeChar ++ '"' :: rest, p⟩ = .value s ⟨rest, q⟩ := by
  obtain ⟨q, hq⟩ := readString_content s.toList rest p
  refine ⟨q, ?_⟩
  unfold readStringAt
  dsimp only
  rw [hq]
  dsimp only
  rw [String.ofList_toList]

/-- The text of a value starts with no blank and not with the bracket that closes an array. -/
theorem text_start {v : Json} (h : v.NumbersReadBack) :
    ∃ c s, v.text = c :: s ∧ isBlank c = false ∧ c ≠ ']' := by
  cases v with
  | null => exact ⟨'n', _, rfl, rfl, by decide⟩
  | bool b =>
    cases b
    · exact ⟨'f', _, rfl, rfl, by decide⟩
    · exact ⟨'t', _, rfl, rfl, by decide⟩
  | number n =>
    obtain ⟨c, s, hs, hc⟩ := Number.ReadsBack.start h
    refine ⟨c, s, hs, ?_, numberStart_ne hc (by decide)⟩
    simp only [isBlank, Bool.or_eq_false_iff, beq_eq_false_iff_ne]
    exact ⟨⟨⟨numberStart_ne hc (by decide), numberStart_ne hc (by decide)⟩,
      numberStart_ne hc (by decide)⟩, numberStart_ne hc (by decide)⟩
  | string s => exact ⟨'"', _, rfl, rfl, by decide⟩
  | array items => exact ⟨'[', _, rfl, rfl, by decide⟩
  | object members => exact ⟨'{', _, rfl, rfl, by decide⟩

/-! ## Steps of the reader -/

section
variable {bound : Nat} {c : Char} {s rest : List Char} {p q : Position}

/-- A value without parts that is read at the cursor (`readScalar`) is the node there. -/
theorem readNode_scalar {value : Scalar} (hblank : isBlank c = false) (harray : c ≠ '[')
    (hobject : c ≠ '{') (h : readScalar ⟨c :: s, p⟩ = .value value ⟨rest, q⟩) :
    readNode (bound + 1) ⟨c :: s, p⟩ = (.scalar p value q, ⟨rest, q⟩) := by
  rw [readNode, skipBlanks_eq (stops_cons hblank s)]
  dsimp only
  split
  · next heq => exact absurd (List.cons.inj heq).1 harray
  · next heq => exact absurd (List.cons.inj heq).1 hobject
  · rw [h]

/-- A bracket closes an array, behind its items or at once. -/
theorem readItems_close (first : Bool) :
    readItems (bound + 1) first ⟨']' :: rest, p⟩
      = ([], .text (p.after ']'), ⟨rest, p.after ']'⟩) := by
  rw [readItems, skipBlanks_eq (stops_cons rfl rest)]
  rfl

/-- The first item of an array stands behind its bracket, without a comma. -/
theorem readItems_first (hblank : isBlank c = false) (hclose : c ≠ ']') :
    readItems (bound + 1) true ⟨c :: s, p⟩ = readItem bound ⟨c :: s, p⟩ := by
  rw [readItems, skipBlanks_eq (stops_cons hblank s)]
  dsimp only
  split
  · next heq => cases heq
  · next heq => exact absurd (List.cons.inj heq).1 hclose
  · rfl

/-- Every other item of an array stands behind a comma. -/
theorem readItems_comma (hblank : isBlank c = false) (hclose : c ≠ ']') :
    readItems (bound + 1) false ⟨',' :: c :: s, p⟩ = readItem bound ⟨c :: s, p.after ','⟩ := by
  rw [readItems, skipBlanks_eq (stops_cons rfl (c :: s))]
  dsimp only [Cursor.next]
  rw [skipBlanks_eq (stops_cons hblank s)]
  split
  · next heq => cases heq
  · next heq => exact absurd (List.cons.inj heq).1 (by decide)
  · next heq =>
    rw [if_neg Bool.false_ne_true, if_pos (List.cons.inj heq).1.symm]
    split
    · next heq => cases heq
    · next heq => exact absurd (List.cons.inj heq).1 hclose
    · rfl

/-- An item that was read to its end, and the items behind it (`readItems`). -/
theorem readItem_eq {start behind : Cursor} {n : Node} {r : List Node × Closing × Cursor}
    (hnode : readNode bound start = (n, behind)) (hbreak : n.break? = none)
    (hrest : readItems bound false behind = r) :
    readItem (bound + 1) start = (n :: r.1, r.2) := by
  rw [readItem, hnode]
  dsimp only
  rw [hbreak, hrest]

/-- A brace closes an object, behind its members or at once. -/
theorem readMembers_close (first : Bool) :
    readMembers (bound + 1) first ⟨'}' :: rest, p⟩
      = ([], .text (p.after '}'), ⟨rest, p.after '}'⟩) := by
  rw [readMembers, skipBlanks_eq (stops_cons rfl rest)]
  rfl

/-- The first member of an object stands behind its brace, without a comma. -/
theorem readMembers_first :
    readMembers (bound + 1) true ⟨'"' :: s, p⟩ = readMember bound ⟨'"' :: s, p⟩ := by
  rw [readMembers, skipBlanks_eq (stops_cons rfl s)]
  rfl

/-- Every other member of an object stands behind a comma. -/
theorem readMembers_comma :
    readMembers (bound + 1) false ⟨',' :: '"' :: s, p⟩
      = readMember bound ⟨'"' :: s, p.after ','⟩ := by
  rw [readMembers, skipBlanks_eq (stops_cons rfl ('"' :: s))]
  dsimp only [Cursor.next]
  rw [skipBlanks_eq (stops_cons rfl s)]
  rfl

/-- The name of a member is read up to its colon, behind which `readContent` goes on. -/
theorem readMember_name (name : String) :
    ∃ q, readMember (bound + 1) ⟨quoted name ++ ':' :: s, p⟩
      = readContent bound (.ok name) ⟨':' :: s, q⟩ := by
  obtain ⟨q, hq⟩ := readStringAt_content name (':' :: s) (p.after '"')
  refine ⟨q, ?_⟩
  have htext : quoted name ++ ':' :: s
      = '"' :: (name.toList.flatMap escapeChar ++ '"' :: ':' :: s) := by
    rw [quoted, List.append_assoc, List.cons_append, List.singleton_append]
  rw [htext, readMember]
  dsimp only [Cursor.next]
  rw [hq]
  dsimp only
  rw [skipBlanks_eq (stops_cons rfl s)]

/-- The content of a member that was read to its end, and the members behind it (`readMembers`). -/
theorem readContent_eq {name : String} {behind : Cursor} {n : Node}
    {r : List (Name × Node) × Closing × Cursor}
    (hnode : readNode bound ⟨s, p.after ':'⟩ = (n, behind)) (hbreak : n.break? = none)
    (hrest : readMembers bound false behind = r) :
    readContent (bound + 1) (.ok name) ⟨':' :: s, p⟩ = ((⟨.ok name, some p⟩, n) :: r.1, r.2) := by
  rw [readContent]
  dsimp only [Cursor.next]
  rw [hnode]
  dsimp only
  rw [hbreak, hrest]
  rfl

end

/-! ## The induction -/

/-- Items as `readItems` meets them: the first one right behind the bracket, and every other one
behind a comma. -/
def itemsFrom (first : Bool) : List Json → List Char
  | [] => []
  | v :: rest => if first then itemsText (v :: rest) else ',' :: itemsText (v :: rest)

/-- Members as `readMembers` meets them: the first one right behind the brace, and every other one
behind a comma. -/
def membersFrom (first : Bool) : List (String × Json) → List Char
  | [] => []
  | m :: rest => if first then membersText (m :: rest) else ',' :: membersText (m :: rest)

/-- The text of items starts with the text of the first one, behind which the others follow as
`readItems` meets them. -/
theorem itemsText_cons (v : Json) (rest : List Json) :
    itemsText (v :: rest) = v.text ++ itemsFrom false rest := by
  cases rest with
  | nil => rw [itemsText, itemsFrom, List.append_nil]
  | cons w rest =>
    rw [itemsText, itemsFrom, if_neg Bool.false_ne_true]
    exact List.cons_ne_nil w rest

/-- The text of members starts with the text of the first one, behind which the others follow as
`readMembers` meets them. -/
theorem membersText_cons (name : String) (v : Json) (rest : List (String × Json)) :
    membersText ((name, v) :: rest) = quoted name ++ ':' :: (v.text ++ membersFrom false rest) := by
  cases rest with
  | nil => rw [membersText, membersFrom, List.append_nil]
  | cons m rest =>
    rw [membersText, membersFrom, if_neg Bool.false_ne_true]
    · simp only [List.append_assoc, List.cons_append]
    · exact List.cons_ne_nil m rest

/-- The items behind the first bracket are their text (`itemsText`). -/
theorem itemsFrom_true (items : List Json) : itemsFrom true items = itemsText items := by
  cases items with
  | nil => rw [itemsFrom, itemsText]
  | cons v rest => rw [itemsFrom, if_pos rfl]

/-- The members behind the first brace are their text (`membersText`). -/
theorem membersFrom_true (members : List (String × Json)) :
    membersFrom true members = membersText members := by
  cases members with
  | nil => rw [membersFrom, membersText]
  | cons m rest => rw [membersFrom, if_pos rfl]

/-- A comma only makes the text of items longer, so the bound for them is enough behind it too. -/
theorem length_itemsText_le (items : List Json) :
    (itemsText items).length ≤ (itemsFrom false items).length := by
  cases items with
  | nil => exact Nat.le_of_eq (by rw [itemsText, itemsFrom])
  | cons v rest => rw [itemsFrom, if_neg Bool.false_ne_true, List.length_cons]; omega

/-- A comma only makes the text of members longer, so the bound for them is enough behind it too. -/
theorem length_membersText_le (members : List (String × Json)) :
    (membersText members).length ≤ (membersFrom false members).length := by
  cases members with
  | nil => exact Nat.le_of_eq (by rw [membersText, membersFrom])
  | cons m rest => rw [membersFrom, if_neg Bool.false_ne_true, List.length_cons]; omega

/-- No number goes on (`EndsNumber`) behind an item of an array: a comma or the bracket follows. -/
theorem endsNumber_itemsFrom (items : List Json) (rest : List Char) :
    EndsNumber (itemsFrom false items ++ ']' :: rest) := by
  cases items with
  | nil => exact stops_cons rfl rest
  | cons v items => exact stops_cons rfl _

/-- No number goes on (`EndsNumber`) behind a member of an object: a comma or the brace follows. -/
theorem endsNumber_membersFrom (members : List (String × Json)) (rest : List Char) :
    EndsNumber (membersFrom false members ++ '}' :: rest) := by
  cases members with
  | nil => exact stops_cons rfl rest
  | cons m members => exact stops_cons rfl _

/-- The text of a value has a character, so each value takes a step of the bound. -/
theorem one_le_length_text {v : Json} (h : v.NumbersReadBack) : 1 ≤ v.text.length := by
  obtain ⟨c, s, hs, -⟩ := text_start h
  rw [hs, List.length_cons]
  omega

/-- A quoted text has its two quotes. -/
theorem two_le_length_quoted (s : String) : 2 ≤ (quoted s).length := by
  rw [quoted, List.length_append, List.length_cons, List.length_singleton]
  omega

/-- The text of a number that reads back is read as a node of the number, wherever it stands
(`Reads`). -/
theorem readNode_number {n : Number} (hn : n.ReadsBack) {rest : List Char} (hrest : EndsNumber rest)
    (bound : Nat) (p : Position) :
    ∃ node q, readNode (bound + 1) ⟨(number n).text ++ rest, p⟩ = (node, ⟨rest, q⟩)
      ∧ node.Reads (.number n) := by
  obtain ⟨q, hq⟩ := readScalar_number hn hrest p
  obtain ⟨c, s, hs, hc⟩ := Number.ReadsBack.start hn
  obtain ⟨c', s', hs', hblank, -⟩ := text_start (v := .number n) hn
  rw [text, hs] at hs'
  cases hs'
  rw [hs] at hq
  rw [text, hs]
  exact ⟨_, _, readNode_scalar hblank (numberStart_ne hc (by decide))
    (numberStart_ne hc (by decide)) hq, Node.reads_scalar (.number n) _ _⟩

/-- The quoted text of a string is read as a node of the string, wherever it stands (`Reads`). -/
theorem readNode_string (s : String) (bound : Nat) (p : Position) (rest : List Char) :
    ∃ node q, readNode (bound + 1) ⟨(string s).text ++ rest, p⟩ = (node, ⟨rest, q⟩)
      ∧ node.Reads (.string s) := by
  obtain ⟨q, hq⟩ := readStringAt_content s rest (p.after '"')
  have htext : (string s).text ++ rest = '"' :: (s.toList.flatMap escapeChar ++ '"' :: rest) := by
    rw [text, quoted, List.append_assoc, List.cons_append, List.singleton_append]
  have hscalar : readScalar ⟨'"' :: (s.toList.flatMap escapeChar ++ '"' :: rest), p⟩
      = .value (.string s) ⟨rest, q⟩ := by
    rw [readScalar]
    dsimp only [Cursor.next]
    rw [if_pos rfl, hq]
    rfl
  rw [htext]
  exact ⟨_, _, readNode_scalar rfl (by decide) (by decide) hscalar,
    Node.reads_scalar (.string s) _ _⟩

mutual

/-- The text of a value in order is read off the front of a text as a node that stands for the value
(`Node.Reads`). The bound is what `read` gives: two steps for each character. -/
theorem readNode_text : ∀ (v : Json), v.Ordered → v.NumbersReadBack → ∀ (bound : Nat)
    (p : Position) (rest : List Char), 2 * v.text.length ≤ bound → EndsNumber rest →
    ∃ n q, readNode bound ⟨v.text ++ rest, p⟩ = (n, ⟨rest, q⟩) ∧ n.Reads v
  | .null, _, _, bound + 1, p, rest, _, _ =>
    ⟨_, _, readNode_scalar rfl (by decide) (by decide) rfl, Node.reads_scalar .null _ _⟩
  | .bool true, _, _, bound + 1, p, rest, _, _ =>
    ⟨_, _, readNode_scalar rfl (by decide) (by decide) rfl,
      Node.reads_scalar (.bool true) _ _⟩
  | .bool false, _, _, bound + 1, p, rest, _, _ =>
    ⟨_, _, readNode_scalar rfl (by decide) (by decide) rfl,
      Node.reads_scalar (.bool false) _ _⟩
  | .number n, _, hn, bound + 1, p, rest, _, hrest => readNode_number hn hrest bound p
  | .string s, _, _, bound + 1, p, rest, _, _ => readNode_string s bound p rest
  -- Two steps for each character suffice: one is for the value itself, and one is left for each
  -- bracket, so what is inside of the brackets is read with the bound that it needs.
  | .array items, ho, hn, bound + 1, p, rest, hbound, _ => by
    have htext : (array items).text ++ rest = '[' :: (itemsFrom true items ++ ']' :: rest) := by
      rw [text, itemsFrom_true, List.cons_append, List.cons_append, List.append_assoc,
        List.singleton_append]
    have hb : 2 * (itemsText items).length + 2 ≤ bound := by
      rw [text, List.cons_append, List.length_cons, List.length_append,
        List.length_singleton] at hbound
      omega
    rw [Ordered] at ho
    rw [NumbersReadBack] at hn
    obtain ⟨nodes, q, r, hread, hitems⟩ :=
      readItems_text items ho hn bound true (p.after '[') rest hb
    refine ⟨.array p nodes (.text q), r, ?_, hitems.array p q⟩
    rw [htext, readNode, skipBlanks_eq (stops_cons rfl _)]
    dsimp only [Cursor.next]
    rw [hread]
    rfl
  | .object members, ho, hn, bound + 1, p, rest, hbound, _ => by
    have htext : (object members).text ++ rest
        = '{' :: (membersFrom true members ++ '}' :: rest) := by
      rw [text, membersFrom_true, List.cons_append, List.cons_append, List.append_assoc,
        List.singleton_append]
    have hb : 2 * (membersText members).length + 2 ≤ bound := by
      rw [text, List.cons_append, List.length_cons, List.length_append,
        List.length_singleton] at hbound
      omega
    rw [Ordered] at ho
    rw [NumbersReadBack] at hn
    obtain ⟨nodes, q, r, hread, hmembers⟩ :=
      readMembers_text members ho.2 hn bound true (p.after '{') rest hb
    refine ⟨.object p nodes (.text q), r, ?_, hmembers.object ho.1 p q⟩
    rw [htext, readNode, skipBlanks_eq (stops_cons rfl _)]
    dsimp only [Cursor.next]
    rw [hread]
    rfl
  -- A text has a character, so there is no bound of zero.
  | v, _, hn, 0, _, _, hbound, _ => by
    have := one_le_length_text hn
    omega

/-- The text of the items of an array in order is read up to its bracket, from the first item on or
behind others. -/
theorem readItems_text : ∀ (items : List Json), OrderedItems items → NumbersReadBackItems items →
    ∀ (bound : Nat) (first : Bool) (p : Position) (rest : List Char),
    2 * (itemsText items).length + 2 ≤ bound →
    ∃ nodes q r, readItems bound first ⟨itemsFrom first items ++ ']' :: rest, p⟩
      = (nodes, .text q, ⟨rest, r⟩) ∧ Node.ReadsItems nodes items
  | [], _, _, bound + 1, first, p, rest, _ =>
    ⟨[], _, _, readItems_close first, Node.readsItems_nil⟩
  | v :: items, ho, hn, bound + 2, first, p, rest, hbound => by
    rw [OrderedItems] at ho
    rw [NumbersReadBackItems] at hn
    have hlength := length_itemsText_le items
    have hone := one_le_length_text hn.1
    rw [itemsText_cons, List.length_append] at hbound
    have hstep : ∃ q, readItems (bound + 2) first ⟨itemsFrom first (v :: items) ++ ']' :: rest, p⟩
        = readItem (bound + 1) ⟨v.text ++ (itemsFrom false items ++ ']' :: rest), q⟩ := by
      obtain ⟨c, s, hs, hblank, hclose⟩ := text_start hn.1
      rw [itemsFrom, itemsText_cons, hs]
      cases first with
      | true => exact ⟨p, by simpa using readItems_first hblank hclose⟩
      | false => exact ⟨p.after ',', by simpa using readItems_comma hblank hclose⟩
    obtain ⟨q, hq⟩ := hstep
    obtain ⟨n, b, hnode, hreads⟩ := readNode_text v ho.1 hn.1 bound q
      (itemsFrom false items ++ ']' :: rest) (by omega) (endsNumber_itemsFrom items rest)
    obtain ⟨nodes, stop, r, hitems, hall⟩ := readItems_text items ho.2 hn.2 bound false b rest
      (by omega)
    exact ⟨n :: nodes, stop, r, hq.trans (readItem_eq hnode hreads.unbroken hitems),
      hall.cons hreads⟩
  | _, _, _, 0, _, _, _, hbound => by omega
  | v :: items, _, hn, 1, _, _, _, hbound => by
    rw [NumbersReadBackItems] at hn
    have hone := one_le_length_text hn.1
    rw [itemsText_cons, List.length_append] at hbound
    omega

/-- The text of the members of an object in order is read up to its brace, from the first member on
or behind others (`ReadsMembers`). -/
theorem readMembers_text : ∀ (members : List (String × Json)), OrderedMembers members →
    NumbersReadBackMembers members →
    ∀ (bound : Nat) (first : Bool) (p : Position) (rest : List Char),
    2 * (membersText members).length + 2 ≤ bound →
    ∃ nodes q r, readMembers bound first ⟨membersFrom first members ++ '}' :: rest, p⟩
      = (nodes, .text q, ⟨rest, r⟩) ∧ Node.ReadsMembers nodes members
  | [], _, _, bound + 1, first, p, rest, _ =>
    ⟨[], _, _, readMembers_close first, Node.readsMembers_nil⟩
  | (name, v) :: members, ho, hn, bound + 3, first, p, rest, hbound => by
    rw [OrderedMembers] at ho
    rw [NumbersReadBackMembers] at hn
    have hlength := length_membersText_le members
    have htwo := two_le_length_quoted name
    rw [membersText_cons, List.length_append, List.length_cons, List.length_append] at hbound
    -- The comma is only there behind another member; from the name on both cases are the same.
    have hstep : ∃ q, readMembers (bound + 3) first
          ⟨membersFrom first ((name, v) :: members) ++ '}' :: rest, p⟩
        = readMember (bound + 2)
          ⟨quoted name ++ ':' :: (v.text ++ (membersFrom false members ++ '}' :: rest)), q⟩ := by
      rw [membersFrom, membersText_cons]
      cases first with
      | true => exact ⟨p, by simpa [quoted] using readMembers_first⟩
      | false => exact ⟨p.after ',', by simpa [quoted] using readMembers_comma⟩
    obtain ⟨q, hq⟩ := hstep
    obtain ⟨colon, hcolon⟩ := readMember_name name
    obtain ⟨n, b, hnode, hreads⟩ := readNode_text v ho.1 hn.1 bound (colon.after ':')
      (membersFrom false members ++ '}' :: rest) (by omega) (endsNumber_membersFrom members rest)
    obtain ⟨nodes, stop, r, hmembers, hall⟩ := readMembers_text members ho.2 hn.2 bound false b
      rest (by omega)
    exact ⟨_, stop, r, (hq.trans hcolon).trans (readContent_eq hnode hreads.unbroken hmembers),
      hall.cons hreads name colon⟩
  | _, _, _, 0, _, _, _, hbound | _, _, _, 1, _, _, _, hbound => by omega
  | (name, v) :: members, _, _, 2, _, _, _, hbound => by
    rw [membersText_cons, List.length_append, List.length_cons] at hbound
    omega

end

/-! ## Whole texts -/

/-- **The compact text of a value reads back as the value**: its objects must be `ordered`, its
`numbers` must read back, and it must be `shallow` enough for a text (`maxDepth`). -/
theorem read_text {v : Json} (ordered : v.Ordered) (numbers : v.NumbersReadBack)
    (shallow : v.depth ≤ maxDepth) : read v.text = .ok v := by
  obtain ⟨n, q, hread, hreads⟩ := readNode_text v ordered numbers (4 * v.text.length + 4) ⟨1, 0⟩ []
    (by omega) (stops_nil isNumberPart)
  rw [List.append_nil] at hread
  unfold read Node.read Cursor.start
  rw [hread]
  dsimp only
  rw [hreads.sound maxDepth shallow, hreads.value]
  rfl

/-- The bytes of a value (`toBytes`) are those of its compact text in UTF-8. -/
theorem fromUTF8?_toBytes (v : Json) : String.fromUTF8? ⟨v.toBytes.toArray⟩ = some v.compact := by
  rw [toBytes, Array.toArray_toList, String.fromUTF8?]
  exact dif_pos v.compact.isValidUTF8

/-- The bytes of the compact text read back (`readBytes?`), under the conditions of `read_text`. -/
theorem readBytes?_toBytes {v : Json} (ordered : v.Ordered) (numbers : v.NumbersReadBack)
    (shallow : v.depth ≤ maxDepth) : readBytes? v.toBytes = some v := by
  rw [readBytes?, fromUTF8?_toBytes, Option.bind_some, compact, String.toList_ofList,
    read_text ordered numbers shallow]
  rfl

/-- Values of any depth are equal if their compact texts are: they are read as one node, which
`Node.Reads` both. -/
theorem eq_of_text_eq {v w : Json} (hv : v.Ordered) (hw : w.Ordered) (hnv : v.NumbersReadBack)
    (hnw : w.NumbersReadBack) (h : v.text = w.text) : v = w := by
  obtain ⟨n, p, hn, hreads⟩ := readNode_text v hv hnv (2 * v.text.length) ⟨1, 0⟩ []
    (Nat.le_refl _) (stops_nil isNumberPart)
  obtain ⟨n', p', hn', hreads'⟩ := readNode_text w hw hnw (2 * v.text.length) ⟨1, 0⟩ []
    (Nat.le_of_eq (by rw [h])) (stops_nil isNumberPart)
  rw [← h, hn] at hn'
  cases hn'
  exact hreads.value.symm.trans hreads'.value

/-- Values of any depth are equal if the bytes of their compact texts are. -/
theorem eq_of_toBytes_eq {v w : Json} (hv : v.Ordered) (hw : w.Ordered) (hnv : v.NumbersReadBack)
    (hnw : w.NumbersReadBack) (h : v.toBytes = w.toBytes) : v = w := by
  have hcompact : some v.compact = some w.compact := by
    rw [← fromUTF8?_toBytes, ← fromUTF8?_toBytes, h]
  exact eq_of_text_eq hv hw hnv hnw (String.ofList_injective (Option.some.inj hcompact))

end WorkflowTemplates.Json
