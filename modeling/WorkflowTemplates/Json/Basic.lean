import WorkflowTemplates.Decimal.Binary64

/-!
# JSON values

An integer of JSON is a signed or unsigned 64-bit integer, and any other number a finite number of
the format binary64. The members of an object are kept in the order of their names, without
repetition: `insert` puts a member at its place or replaces the one of that name, and `ofMembers`
builds an object by insertions. `Ordered` says that every object of a value is kept so.
-/

namespace WorkflowTemplates

/-- An integer that a signed or an unsigned 64-bit word holds; the bounds are part of it. -/
structure Json.Integer where
  value : Int
  lower : -0x8000000000000000 ≤ value
  upper : value ≤ 0xffffffffffffffff
  deriving DecidableEq

/-- A number of JSON, as a reader tells them apart: an integer of 64 bits, or a finite number of the
format `Binary64`. -/
inductive Json.Number
  | integer (i : Json.Integer)
  | float (x : Binary64) (finite : x.isFinite = true)
  deriving DecidableEq

/-- A JSON value. The members of an object are a list here; `Json.Ordered` says that they are in
order of their names. -/
inductive Json
  | null
  | bool (b : Bool)
  | number (n : Json.Number)
  | string (s : String)
  | array (items : List Json)
  | object (members : List (String × Json))

namespace Json

/-- A signed 64-bit integer as an `Integer` of JSON, whose bounds it meets. -/
def Integer.ofInt64 (i : Int64) : Integer where
  value := i.toInt
  lower := by have := i.le_toInt; omega
  upper := by have := i.toInt_lt; omega

/-- The integer `i` as an `Integer` of JSON, if a signed or an unsigned 64-bit word holds it. -/
def Integer.ofInt? (i : Int) : Option Integer :=
  if h : -0x8000000000000000 ≤ i ∧ i ≤ 0xffffffffffffffff then some ⟨i, h.1, h.2⟩ else none

/-- The signed 64-bit integer of the same value, if there is one; the lower bound of an `Integer` is
the same. -/
def Integer.toInt64? (i : Integer) : Option Int64 :=
  if i.value ≤ 0x7fffffffffffffff then some (Int64.ofInt i.value) else none

/-- The number `x` as a number of JSON, if it is finite; JSON has no text for the others. -/
def Number.ofFloat? (x : Binary64) : Option Number :=
  if h : x.isFinite = true then some (.float x h) else none

/-- The JSON value of a signed 64-bit integer (`Integer.ofInt64`). -/
def ofInt64 (i : Int64) : Json :=
  .number (.integer (.ofInt64 i))

/-- The members with `value` under `name`, at its place in the order of the names; it replaces a
member of the same name. Names are compared character by character. -/
def insert (name : String) (value : Json) : List (String × Json) → List (String × Json)
  | [] => [(name, value)]
  | (other, v) :: rest =>
    if name < other then (name, value) :: (other, v) :: rest
    else if name = other then (name, value) :: rest
    else (other, v) :: insert name value rest

/-- The object of a list of members, put in one by one (`insert`); of two members of one name the
later one stays. -/
def ofMembers (members : List (String × Json)) : Json :=
  .object (members.foldl (fun sorted m => insert m.1 m.2 sorted) [])

/-- The member `name` of an object; other values have no members. -/
def get? (name : String) : Json → Option Json
  | .object members => members.lookup name
  | _ => none

mutual

/-- In every object of the value the names of the members ascend strictly, so that none occurs
twice. -/
def Ordered : Json → Prop
  | .array items => OrderedItems items
  | .object members => members.Pairwise (·.1 < ·.1) ∧ OrderedMembers members
  | _ => True

/-- Every item of an array is `Ordered`. -/
def OrderedItems : List Json → Prop
  | [] => True
  | v :: rest => Ordered v ∧ OrderedItems rest

/-- The value of every member is `Ordered`. -/
def OrderedMembers : List (String × Json) → Prop
  | [] => True
  | (_, v) :: rest => Ordered v ∧ OrderedMembers rest

end

mutual

/-- How many arrays and objects stand around the innermost value; readers bound it by `maxDepth`. -/
def depth : Json → Nat
  | .array items => depthItems items + 1
  | .object members => depthMembers members + 1
  | _ => 0

/-- The greatest `depth` among the items of an array, zero if there are none. -/
def depthItems : List Json → Nat
  | [] => 0
  | v :: rest => max (depth v) (depthItems rest)

/-- The greatest `depth` among the values of members, zero if there are none. -/
def depthMembers : List (String × Json) → Nat
  | [] => 0
  | (_, v) :: rest => max (depth v) (depthMembers rest)

end

mutual

/-- Equality of values is decided part by part, since an instance cannot be derived for the nested
type `Json`. -/
def decEq : (a b : Json) → Decidable (a = b)
  | .null, .null => isTrue rfl
  | .bool a, .bool b => decidable_of_iff (a = b) (by simp)
  | .number a, .number b => decidable_of_iff (a = b) (by simp)
  | .string a, .string b => decidable_of_iff (a = b) (by simp)
  | .array a, .array b =>
    match decEqItems a b with
    | isTrue h => isTrue (by rw [h])
    | isFalse h => isFalse (by simp [h])
  | .object a, .object b =>
    match decEqMembers a b with
    | isTrue h => isTrue (by rw [h])
    | isFalse h => isFalse (by simp [h])
  | .null, .bool _ | .null, .number _ | .null, .string _ | .null, .array _ | .null, .object _
  | .bool _, .null | .bool _, .number _ | .bool _, .string _ | .bool _, .array _
  | .bool _, .object _ | .number _, .null | .number _, .bool _ | .number _, .string _
  | .number _, .array _ | .number _, .object _ | .string _, .null | .string _, .bool _
  | .string _, .number _ | .string _, .array _ | .string _, .object _ | .array _, .null
  | .array _, .bool _ | .array _, .number _ | .array _, .string _ | .array _, .object _
  | .object _, .null | .object _, .bool _ | .object _, .number _ | .object _, .string _
  | .object _, .array _ => isFalse (by simp)

/-- Equality of the items of two arrays is decided from the first item on (`decEq`). -/
def decEqItems : (a b : List Json) → Decidable (a = b)
  | [], [] => isTrue rfl
  | [], _ :: _ | _ :: _, [] => isFalse (by simp)
  | a :: as, b :: bs =>
    match decEq a b, decEqItems as bs with
    | isTrue h, isTrue h' => isTrue (by rw [h, h'])
    | isFalse h, _ => isFalse (by simp [h])
    | _, isFalse h => isFalse (by simp [h])

/-- Equality of the members of two objects is decided from the first member on, by name and value
(`decEq`). -/
def decEqMembers : (a b : List (String × Json)) → Decidable (a = b)
  | [], [] => isTrue rfl
  | [], _ :: _ | _ :: _, [] => isFalse (by simp)
  | (j, a) :: as, (k, b) :: bs =>
    if hk : j = k then
      match decEq a b, decEqMembers as bs with
      | isTrue h, isTrue h' => isTrue (by rw [hk, h, h'])
      | isFalse h, _ => isFalse (by simp [h])
      | _, isFalse h => isFalse (by simp [h])
    else isFalse (by simp [hk])

end

instance : DecidableEq Json := decEq

instance : Inhabited Json := ⟨.null⟩

end Json

end WorkflowTemplates
