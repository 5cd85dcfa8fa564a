import WorkflowTemplates.Json.Basic
import WorkflowTemplates.Json.Printer

/-!
# Documents

A document is what is rendered: a tree of scalars, lists and records whose fields keep the order in
which they were given. As a JSON value (`Document.toJson`) its fields are sorted.

The text of a document in JSON goes over several lines (`Document.toPretty`), with the fields as
they were given.
-/

namespace WorkflowTemplates

/-- What is rendered: an ordered tree of scalars, lists and records, whose fields keep the order in
which they were given. -/
inductive Document
  | null
  | bool (b : Bool)
  | number (n : Json.Number)
  | string (s : String)
  | list (items : List Document)
  | record (fields : List (String × Document))

namespace Document

/-- The list of `texts`, each as a string. -/
def strings (texts : List String) : Document :=
  .list (texts.map .string)

/-- The field `name` of a record, left out if it has no `value`: templates are written without the
fields that nothing says. -/
def field? (name : String) (value : Option Document) : List (String × Document) :=
  value.toList.map fun v => (name, v)

/-- The field `name` with a text, left out if there is none (`field?`). -/
def text? (name : String) (value : Option String) : List (String × Document) :=
  field? name (value.map .string)

/-- The field `name` with a list of texts, left out if there is none (`field?`). An empty list is
written. -/
def texts? (name : String) (value : Option (List String)) : List (String × Document) :=
  field? name (value.map strings)

/-- The number of a signed 64-bit integer, which `Json.Number.integer` holds as it is. -/
def ofInt64 (i : Int64) : Document :=
  .number (.integer (.ofInt64 i))

/-- The number of an unsigned 64-bit integer, which `Json.Number.integer` holds as it is. -/
def ofUInt64 (i : UInt64) : Document :=
  .number (.integer {
    value := i.toNat
    lower := by omega
    upper := by have := i.toNat_lt; omega })

mutual

/-- A JSON value as a document: an array is a list, and an object a record in the order of its
members. -/
def ofJson : Json → Document
  | .null => .null
  | .bool b => .bool b
  | .number n => .number n
  | .string s => .string s
  | .array items => .list (ofItems items)
  | .object members => .record (ofMembers members)

/-- The items of an array as those of a list (`ofJson`). -/
def ofItems : List Json → List Document
  | [] => []
  | v :: rest => ofJson v :: ofItems rest

/-- The members of an object as the fields of a record (`ofJson`). -/
def ofMembers : List (String × Json) → List (String × Document)
  | [] => []
  | (k, v) :: rest => (k, ofJson v) :: ofMembers rest

end

mutual

/-- A document as a JSON value. The fields of a record become members sorted by name, of which the
last of a name counts (`Json.ofMembers`). -/
def toJson : Document → Json
  | .null => .null
  | .bool b => .bool b
  | .number n => .number n
  | .string s => .string s
  | .list items => .array (toItems items)
  | .record fields => Json.ofMembers (toMembers fields)

/-- The items of a list as those of an array (`toJson`). -/
def toItems : List Document → List Json
  | [] => []
  | d :: rest => toJson d :: toItems rest

/-- The fields of a record as members, in the order of the fields (`toJson`). -/
def toMembers : List (String × Document) → List (String × Json)
  | [] => []
  | (k, d) :: rest => (k, toJson d) :: toMembers rest

end

/-! ## JSON over several lines -/

/-- The end of a line and the indentation of the next one, two spaces for each level of `depth`. -/
def newLine (depth : Nat) : List Char :=
  '\n' :: List.replicate (2 * depth) ' '

mutual

/-- The text of a document as JSON over several lines, when it stands `depth` levels inside others.
Empty lists and records stay on one line. -/
def prettyText (depth : Nat) : Document → List Char
  | .null => "null".toList
  | .bool b => if b then "true".toList else "false".toList
  | .number n => n.text
  | .string s => Json.quoted s
  | .list [] => ['[', ']']
  | .list (d :: rest) => '[' :: prettyItems (depth + 1) (d :: rest) ++ newLine depth ++ [']']
  | .record [] => ['{', '}']
  | .record (f :: rest) => '{' :: prettyFields (depth + 1) (f :: rest) ++ newLine depth ++ ['}']

/-- The items of a list, each on a new line of the given `depth`, with commas behind all but the
last. -/
def prettyItems (depth : Nat) : List Document → List Char
  | [] => []
  | [d] => newLine depth ++ prettyText depth d
  | d :: rest => newLine depth ++ prettyText depth d ++ ',' :: prettyItems depth rest

/-- The fields of a record, each on a new line of the given `depth`, with commas behind all but the
last. -/
def prettyFields (depth : Nat) : List (String × Document) → List Char
  | [] => []
  | [(k, d)] => newLine depth ++ Json.quoted k ++ ':' :: ' ' :: prettyText depth d
  | (k, d) :: rest =>
    newLine depth ++ Json.quoted k ++ ':' :: ' ' :: prettyText depth d
      ++ ',' :: prettyFields depth rest

end

/-- The document `d` as JSON over several lines, from the outermost level on (`prettyText`). -/
def toPretty (d : Document) : String :=
  String.ofList (prettyText 0 d)

end Document

end WorkflowTemplates
