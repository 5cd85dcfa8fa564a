import WorkflowTemplates.Decimal.Integer
import WorkflowTemplates.Entries
import WorkflowTemplates.Json.Basic
import WorkflowTemplates.Text.Letter

/-!
# Trees of settings

What a source of settings says is a tree: tables of named settings, lists, and single values. Names
are in lower case. Putting a tree under a name of another one merges tables name by name, and any
other value replaces what was there; a path leads to settings further inside (`Setting.set`).

A source is put over a tree entry by entry, each entry under the path that its name is read as
(`Setting.overlay`). JSON values are trees of settings as well (`Setting.ofJson`).
-/

namespace WorkflowTemplates

/-- What a source says about settings: `nothing`, a single value, a list, or a table of entries
under names. -/
inductive Setting
  | nothing
  | boolean (b : Bool)
  | integer (i : Int64)
  | float (x : Binary64)
  | text (s : String)
  | list (items : List Setting)
  | table (entries : List (String × Setting))

namespace Setting

instance : Inhabited Setting := ⟨nothing⟩

/-- The `name` in lower case (`Text.lowerCase`), so that names of sources are compared without
regard to case. -/
def lowerName (name : String) : String :=
  String.ofList (Text.lowerCase name.toList)

/-- The entries of a table; other settings have none. -/
def entries : Setting → List (String × Setting)
  | table entries => entries
  | _ => []

/-- The items of a list; other settings have none. -/
def items : Setting → List Setting
  | list items => items
  | _ => []

/-- The items with `value` at an index; the list grows by `nothing` as far as needed. -/
def replaceItem (value : Setting) : Nat → List Setting → List Setting
  | 0, [] => [value]
  | 0, _ :: rest => value :: rest
  | n + 1, [] => nothing :: replaceItem value n []
  | n + 1, v :: rest => v :: replaceItem value n rest

mutual

/-- The table of `target` with a setting under `name`. A table merges with what stands there
(`merge`), and an empty one leaves it as it is; any other setting takes its place. If `target` is no
table it counts as an empty one. -/
def put (target : Setting) (name : String) : Setting → Setting
  | .table merged =>
    let old := (target.entries.lookup name).getD (.table [])
    .table (insertEntry name (merge old merged) target.entries)
  | value => .table (insertEntry name value target.entries)

/-- The setting `target` into which entries are put one by one (`put`), so that tables inside tables
merge too. -/
def merge (target : Setting) : List (String × Setting) → Setting
  | [] => target
  | (name, value) :: rest => merge (put target name value) rest

end

/-! ## Paths -/

/-- A step of a path: to the entry of a name, or to an item, which a negative index counts from the
end. -/
inductive Step
  | name (s : String)
  | item (index : Int)
  deriving DecidableEq

/-- The place of the item `index` in a list of the given `length`; a negative index before the start
is the first place. -/
def itemPlace (index : Int) (length : Nat) : Nat :=
  if index < 0 then length - index.natAbs else index.toNat

/-- The tree `target` with `value` at the end of a path, which is made where it is missing. What
stands in the way of the path is replaced, and the value itself is put as by `put`. -/
def set (value target : Setting) : Step → List Step → Setting
  | .name k, [] => put target k value
  | .name k, next :: rest =>
    let old := (target.entries.lookup k).getD .nothing
    .table (insertEntry k (set value old next rest) target.entries)
  | .item i, [] =>
    .list (replaceItem value (itemPlace i target.items.length) target.items)
  | .item i, next :: rest =>
    let place := itemPlace i target.items.length
    let old := target.items.getD place .nothing
    .list (replaceItem (set value old next rest) place target.items)

/-- Whether `c` may stand in the name of a path. -/
def isPathChar (c : Char) : Bool :=
  Text.isDigit c || Text.isAsciiLetter c || c == ' ' || c == '_' || c == '-'

/-- The index between the brackets of a path: decimal digits after at most a minus sign, with spaces
and tabs around them. -/
def readIndex? (s : List Char) : Option Int :=
  let isSpace (c : Char) : Bool := c == ' ' || c == '\t'
  let inner := ((s.dropWhile isSpace).reverse.dropWhile isSpace).reverse
  match inner with
  | '+' :: _ => none
  | _ =>
    match Decimal.readInteger 10 inner with
    | .ok i => some i.toInt
    | .error _ => none

/-- The steps behind the first name of a path: a name behind a point, or an index between brackets.
The first argument bounds the recursion; the length of the text is enough. -/
def readSteps? : Nat → List Char → Option (List Step)
  | _, [] => some []
  | 0, _ => none
  | bound + 1, '.' :: s =>
    let name := s.takeWhile isPathChar
    if name.isEmpty then none
    else (readSteps? bound (s.dropWhile isPathChar)).map (.name (String.ofList name) :: ·)
  | bound + 1, '[' :: s =>
    match readIndex? (s.takeWhile (· != ']')), s.dropWhile (· != ']') with
    | some i, _ :: rest => (readSteps? bound rest).map (.item i :: ·)
    | _, _ => none
  | _, _ => none

/-- The path that `key` stands for: its first step and the steps behind it (`readSteps?`). A key
that is no path is a name as a whole. -/
def readPath (key : String) : Step × List Step :=
  let s := key.toList
  let name := s.takeWhile isPathChar
  match name.isEmpty, readSteps? s.length (s.dropWhile isPathChar) with
  | false, some steps => (.name (String.ofList name), steps)
  | _, _ => (.name key, [])

/-- The tree `target` with the entries of a source, one by one, each set at the path that its key
stands for (`readPath`). -/
def overlay (target : Setting) (source : List (String × Setting)) : Setting :=
  source.foldl
    (fun t e => let (first, rest) := readPath e.1; set e.2 t first rest) target

/-! ## JSON as settings -/

/-- A JSON number as a setting: an integer as long as a signed word holds it, else the nearest
number of binary64. -/
def ofNumber : Json.Number → Setting
  | .integer i =>
    match i.toInt64? with
    | some n => integer n
    | none => float (.ofInt i.value)
  | .float x _ => float x

mutual

/-- A JSON value as a setting; null is `nothing`. -/
def ofJson : Json → Setting
  | .null => nothing
  | .bool b => boolean b
  | .number n => ofNumber n
  | .string s => text s
  | .array items => list (ofItems items)
  | .object members => table (ofMembers members)

/-- The items of a JSON array as settings (`ofJson`). -/
def ofItems : List Json → List Setting
  | [] => []
  | v :: rest => ofJson v :: ofItems rest

/-- The members of a JSON object as settings (`ofJson`) under names in lower case. -/
def ofMembers : List (String × Json) → List (String × Setting)
  | [] => []
  | (k, v) :: rest => (lowerName k, ofJson v) :: ofMembers rest

end

end Setting

end WorkflowTemplates
