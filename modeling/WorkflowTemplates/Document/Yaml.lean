import WorkflowTemplates.Document.Basic
import WorkflowTemplates.Document.YamlScalar

/-!
# Documents as YAML

Records and lists are written as blocks: a field on a line of its own, an item behind a dash. Fields
and items of an item, and fields of a field, stand two columns deeper, while the items of a field
stand in the column of its key. Empty records and lists stay on one line.
-/

namespace WorkflowTemplates.Yaml

/-- The text of a number that is no integer: positional from `0.00001` to below `10 ^ 16`, whole
ones with `.0`, otherwise with an exponent that has no plus sign; NaN is `.nan`, as in YAML. -/
def floatText (x : Binary64) : List Char :=
  let layout : Decimal.FloatLayout := {
    tie := .even
    positional := fun e => -5 ≤ e && e ≤ 15
    pointZero := true
    exponentDigits := 1
    nan := ".nan" }
  (layout.text x).filter (· != '+')

/-- The spaces before `column`. -/
def indentation (column : Nat) : List Char :=
  List.replicate column ' '

/-- A scalar or an empty list or record, and the end of the line behind it; these are written in
flow style, and other lists and records never come here. Texts are those of `scalarLine`. -/
def flatLine (column : Nat) : Document → List Char
  | .null => "null\n".toList
  | .bool b => if b then "true\n".toList else "false\n".toList
  | .number (.integer i) => Decimal.integer i.value ++ ['\n']
  | .number (.float x _) => floatText x ++ ['\n']
  | .string s => scalarLine column s.toList
  | .list _ => "[]\n".toList
  | .record _ => ['{', '}', '\n']

/-- What a value stands behind: a `mark`, which is a dash or the colon below a key of several lines,
or the colon behind a `key`. -/
inductive Place
  | mark
  | key

/-- The text `key` and its colon. A key that YAML does not allow as a simple key (`isSimpleKey`) has
a line of its own behind a question mark. -/
def keyText (column : Nat) (key : List Char) : List Char :=
  if isSimpleKey key then inlineText (style key) (column + 2) key ++ [':']
  else '?' :: ' ' :: scalarLine (column + 2) key ++ indentation column ++ [':']

/-- What the value of the text `key` stands behind, by the form in which `keyText` writes it. -/
def keyPlace (key : List Char) : Place :=
  if isSimpleKey key then .key else .mark

/-- The column of the items of a list that stands in `column`: the items of a field stand below its
key, those of an item two columns deeper. -/
def itemColumn (place : Place) (column : Nat) : Nat :=
  match place with
  | .mark => column + 2
  | .key => column

/-- What comes before the first part of a block in `column`: behind a dash it stays on the line,
behind a key it starts a new one. -/
def blockStart (place : Place) (column : Nat) : List Char :=
  match place with
  | .mark => [' ']
  | .key => '\n' :: indentation column

mutual

/-- A value behind a mark or key that stands in `column`, and the end of the line behind it: a block
for a list or record that is not empty, else a line (`flatLine`). -/
def valueText (place : Place) (column : Nat) : Document → List Char
  | .list (d :: rest) =>
    let column := itemColumn place column
    blockStart place column ++ '-' :: valueText .mark column d ++ moreItems column rest
  | .record ((k, d) :: rest) =>
    let column := column + 2
    blockStart place column ++ keyText column k.toList
      ++ valueText (keyPlace k.toList) column d ++ moreFields column rest
  | d => ' ' :: flatLine (column + 2) d

/-- Items on lines of their own, each behind a dash in `column`. -/
def moreItems (column : Nat) : List Document → List Char
  | [] => []
  | d :: rest => indentation column ++ '-' :: valueText .mark column d ++ moreItems column rest

/-- Fields on lines of their own, each key in `column` (`keyText`) and its value behind it
(`valueText`). -/
def moreFields (column : Nat) : List (String × Document) → List Char
  | [] => []
  | (k, d) :: rest =>
    indentation column ++ keyText column k.toList
      ++ valueText (keyPlace k.toList) column d ++ moreFields column rest

end

/-- The whole document as block-style YAML, without a marker of documents before it. -/
def ofDocument : Document → String
  | .list items => String.ofList (if items.isEmpty then "[]\n".toList else moreItems 0 items)
  | .record fields =>
    String.ofList (if fields.isEmpty then ['{', '}', '\n'] else moreFields 0 fields)
  | d => String.ofList (flatLine 0 d)

end WorkflowTemplates.Yaml
