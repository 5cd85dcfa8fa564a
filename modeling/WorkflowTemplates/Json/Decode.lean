import WorkflowTemplates.Json.Reader
import WorkflowTemplates.Text.Invisible

/-!
# Decoding JSON nodes

A decoder asks a node for a value of some type and says what it found instead. Records are read by
a list of fields (`Field`), each of which stores its value into a record that starts out empty:
from an object by name, in the order of the members, or from an array by position. A field may be
required, may be missing from an object only, or may be missing everywhere.

Errors carry the place that the text had when they were noticed; values in memory have none.
-/

namespace WorkflowTemplates.Json

/-- What kept a node from being decoded: its type, value or length, a name that is missing, repeated
or unknown, or a fault of the text. -/
inductive DecodeFault
  | wrongType (found expected : String)
  | wrongValue (found expected : String)
  | wrongLength (length : Nat) (expected : String)
  | missingField (name : String)
  | repeatedField (name : String)
  | unknownVariant (name : String) (known : List String)
  | noVariant (type : String)
  | text (fault : Fault)
  deriving DecidableEq

/-- The alternatives `names` as a message offers them, each between backticks. -/
def alternatives (names : List String) : String :=
  match names.map fun n => "`" ++ n ++ "`" with
  | [] => "there are no variants"
  | [a] => "expected " ++ a
  | [a, b] => "expected " ++ a ++ " or " ++ b
  | all => "expected one of " ++ ", ".intercalate all

/-- The wording of a fault, without the place that `DecodeError.message` adds. -/
def DecodeFault.message : DecodeFault → String
  | wrongType found expected => "invalid type: " ++ found ++ ", expected " ++ expected
  | wrongValue found expected => "invalid value: " ++ found ++ ", expected " ++ expected
  | wrongLength length expected =>
    "invalid length " ++ String.ofList (Decimal.natural length) ++ ", expected " ++ expected
  | missingField name => "missing field `" ++ name ++ "`"
  | repeatedField name => "duplicate field `" ++ name ++ "`"
  | unknownVariant name known => "unknown variant `" ++ name ++ "`, " ++ alternatives known
  | noVariant type => "no variant of enum " ++ type ++ " found in flattened data"
  | text fault => fault.message

/-- A fault and the place where it was noticed, if the node came from a text. -/
structure DecodeError where
  fault : DecodeFault
  position : Option Position
  deriving DecidableEq

/-- The wording of an error, behind which the line and the column stand if it has a place. -/
def DecodeError.message (e : DecodeError) : String :=
  match e.position with
  | none => e.fault.message
  | some p =>
    e.fault.message ++ " at line " ++ String.ofList (Decimal.natural p.line)
      ++ " column " ++ String.ofList (Decimal.natural p.column)

/-- An error of the text as an error of decoding, at the same place. -/
def TextError.toDecodeError (e : TextError) : DecodeError :=
  ⟨.text e.fault, some e.position⟩

/-- The error with the place `p`, unless it has one already: a decoder that calls another one knows
the place later. -/
def DecodeError.noticedAt (p : Option Position) (e : DecodeError) : DecodeError :=
  ⟨e.fault, e.position.or p⟩

/-- The text of the name `n`, or the error of a name that has none. -/
def Name.get (n : Name) : Except DecodeError String :=
  n.text.mapError (·.toDecodeError)

/-- A way to take a value out of a node, or to say what was found instead. -/
abbrev Decoder (α : Type) := Node → Except DecodeError α

/-- What a value without parts is called in messages, its value included. -/
def Scalar.description : Scalar → String
  | null => "null"
  | bool b => if b then "boolean `true`" else "boolean `false`"
  | number (.integer i) => "integer `" ++ String.ofList (Decimal.integer i.value) ++ "`"
  | number (.float x _) => "floating point `" ++ String.ofList (numberLayout.text x) ++ "`"
  | string s => "string " ++ Text.quoted s

namespace Node

/-- The error of a node that is not of the `expected` type. A value without parts is read first, so
its fault comes before the mismatch, and a container is not entered. -/
def unexpected (expected : String) : Node → DecodeError
  | .scalar _ value stop => ⟨.wrongType value.description expected, stop⟩
  | .array start _ _ => ⟨.wrongType "sequence" expected, start⟩
  | .object start _ _ => ⟨.wrongType "map" expected, start⟩
  | .flawed _ e => e.toDecodeError
  | .broken _ b => b.read.toDecodeError

/-- The text of a node that is a string. -/
def string : Decoder String
  | .scalar _ (.string s) _ => .ok s
  | n => .error (n.unexpected "a string")

/-- The truth value of a node that is one. -/
def bool : Decoder Bool
  | .scalar _ (.bool b) _ => .ok b
  | n => .error (n.unexpected "a boolean")

/-- The integer of a node, if it is from `low` to `high`. A number with a fraction or an exponent is
none, even if its value is whole; `type` is what messages call the bounds. -/
def integerWithin (low high : Int) (type : String) : Decoder Int
  | .scalar _ (.number (.integer i)) stop =>
    if low ≤ i.value ∧ i.value ≤ high then .ok i.value
    else .error ⟨.wrongValue (Scalar.number (.integer i)).description type, stop⟩
  | n => .error (n.unexpected type)

/-- The signed 64-bit integer of a node (`integerWithin`). -/
def int64 : Decoder Int64 :=
  fun n => (integerWithin (-0x8000000000000000) 0x7fffffffffffffff "i64" n).map Int64.ofInt

/-- The unsigned 64-bit integer of a node (`integerWithin`). -/
def uint64 : Decoder UInt64 :=
  fun n => (integerWithin 0 0xffffffffffffffff "u64" n).map fun i => UInt64.ofNat i.toNat

/-- The value of any node, unless its text has a fault or it is deeper than `maxDepth`. -/
def any : Decoder Json := fun n =>
  match n.firstError maxDepth with
  | some e => .error e.toDecodeError
  | none => .ok n.value

/-- The value that `decode` takes out of a node, or none if the node is null. -/
def optional {α : Type} (decode : Decoder α) : Decoder (Option α)
  | .scalar _ .null _ => .ok none
  | n => (decode n).map some

/-- The values that `decode` takes out of the items of an array, in order, or the first error. -/
def itemsAs {α : Type} (decode : Decoder α) : List Node → Except DecodeError (List α)
  | [] => .ok []
  | n :: rest => do
    let v ← decode n
    let values ← itemsAs decode rest
    .ok (v :: values)

/-- The values of the items of a node that is an array. The fault of an array that breaks off comes
behind those of its items. -/
def list {α : Type} (decode : Decoder α) : Decoder (List α)
  | .array _ items closing => do
    let values ← itemsAs decode items
    match closing.error? with
    | some e => .error e.toDecodeError
    | none => .ok values
  | n => .error (n.unexpected "a sequence")

/-- The variant that `name` stands for in a table of them, or the error that lists the known names.
-/
def variantNamed {α : Type} (variants : List (String × α)) (name : String) :
    Except DecodeError α :=
  match variants.lookup name with
  | some v => .ok v
  | none => .error ⟨.unknownVariant name (variants.map (·.1)), none⟩

/-- The one member of an object that stands for a variant with its content. -/
def singleMember : List Member → Except DecodeError Member
  | [m] => .ok m
  | _ => .error ⟨.wrongValue "map" "map with a single key", none⟩

/-- Checks that the content of a variant without content is null; in a copy set aside
(`Closing.setAside`) an empty object will do as well. -/
def unit : Decoder Unit
  | .scalar _ .null _ => .ok ()
  | .object _ [] .setAside => .ok ()
  | n => .error (n.unexpected "unit")

/-- A variant without content: its name as a string, or an object of its name and null. -/
def variant {α : Type} (variants : List (String × α)) : Decoder α
  | .scalar _ (.string s) _ => variantNamed variants s
  | .object _ members _ => do
    let (name, content) ← singleMember members
    let v ← variantNamed variants (← name.get)
    unit content
    .ok v
  | n => .error (n.unexpected "string or map")

/-- A variant with content, which is an object of its name and the content. The name alone is an
error, but only after it was looked up. -/
def tagged {α : Type} (variants : List (String × Decoder α)) : Decoder α
  | .scalar _ (.string s) _ => do
    let _ ← variantNamed variants s
    .error ⟨.wrongType "unit variant" "newtype variant", none⟩
  | .object _ members _ => do
    let (name, content) ← singleMember members
    let decode ← variantNamed variants (← name.get)
    decode content
  | n => .error (n.unexpected "string or map")

end Node

/-! ## Records -/

/-- Where a field may be missing from the node of its record. -/
inductive Need
  /-- The field is always there, whether by name or by position. -/
  | required
  /-- An object may lack the field. -/
  | optional
  /-- An object may lack the field, and an array may end before it. -/
  | defaulted
  deriving DecidableEq

/-- A field of a record of the type `ρ`: its `name`, where it may be missing, and how the value of a
node is stored. -/
structure Field (ρ : Type) where
  name : String
  need : Need
  store : Node → ρ → Except DecodeError ρ

/-- The field `name` whose value is taken out of the node by `decode` and stored by `put`. -/
def Field.of {ρ α : Type} (name : String) (need : Need) (decode : Decoder α) (put : α → ρ → ρ) :
    Field ρ where
  name := name
  need := need
  store n r := (decode n).map fun v => put v r

/-- The field `name` with a text that an object may lack, or that may be null. -/
def Field.text? {ρ : Type} (name : String) (put : Option String → ρ → ρ) : Field ρ :=
  .of name .optional (Node.optional Node.string) put

/-- The field `name` with a list of texts that an object may lack, or that may be null. -/
def Field.texts? {ρ : Type} (name : String) (put : Option (List String) → ρ → ρ) : Field ρ :=
  .of name .optional (Node.optional (Node.list Node.string)) put

/-- A type of records: its name for messages, its fields in the order of positions, and the record
`empty` into which values are stored. -/
structure RecordType (ρ : Type) where
  name : String
  fields : List (Field ρ)
  empty : ρ

namespace RecordType

variable {ρ : Type}

/-- The record of members that are known by name, after the names `seen` were read into `r`, in the
order of the members. Every member of no known name goes to `other`; a name that was seen is an
error. -/
def readMembers (fields : List (Field ρ)) (other : Member → ρ → Except DecodeError ρ) :
    List String → ρ → List Member → Except DecodeError (List String × ρ)
  | seen, r, [] => .ok (seen, r)
  | seen, r, (name, n) :: rest => do
    let text ← name.get
    match fields.find? (·.name = text) with
    | none =>
      let r ← other (name, n) r
      readMembers fields other seen r rest
    | some field =>
      if seen.contains text then .error ⟨.repeatedField text, name.behind⟩
      else
        let r ← field.store n r
        readMembers fields other (text :: seen) r rest

/-- The name of the first required field that was not `seen`. -/
def missing? (fields : List (Field ρ)) (seen : List String) : Option String :=
  (fields.find? fun f => f.need = .required && !seen.contains f.name).map (·.name)

/-- Leaves the record as it is for a member of no known name, whose value is skipped
(`Node.skipError`). -/
def skipMember (m : Member) (r : ρ) : Except DecodeError ρ :=
  match m.2.skipError with
  | some e => .error e.toDecodeError
  | none => .ok r

/-- What an array of the fields of the type `t` is called in messages. -/
def elements (t : RecordType ρ) : String :=
  "struct " ++ t.name ++ " with " ++ String.ofList (Decimal.natural t.fields.length)
    ++ (if t.fields.length = 1 then " element" else " elements")

/-- The fault of a text whose array goes on behind the last field of a record: trailing characters,
unless the text breaks off there for another reason. -/
def surplusError (closing : Closing) : List Node → Option TextError
  | [] => closing.error?.map fun e =>
    match e.fault with
    | .expectedCommaOrBracket | .endInValue => ⟨.trailingCharacters, e.position⟩
    | _ => e
  | n :: _ => n.start?.map fun p => ⟨.trailingCharacters, ⟨p.line, p.column + 1⟩⟩

/-- Checks that an array of `total` items ends behind the `known` ones that a record has, in the
words of how the array is `closing`. -/
def checkSurplus (total known : Nat) (items : List Node) (closing : Closing) :
    Except DecodeError Unit :=
  match closing, items with
  | .memory, _ :: _ => .error ⟨.wrongLength total "fewer elements in array", none⟩
  | .setAside, _ :: _ =>
    .error ⟨.wrongLength total (String.ofList (Decimal.natural known)
      ++ (if known = 1 then " element in sequence" else " elements in sequence")), none⟩
  | _, _ =>
    match surplusError closing items with
    | some e => .error e.toDecodeError
    | none => .ok ()

/-- The record of `items` that are known by position, of which `index` were read into `r`. When the
items end, the fields left over must be `defaulted`. -/
def readItems (t : RecordType ρ) (total : Nat) (closing : Closing) :
    Nat → List (Field ρ) → List Node → ρ → Except DecodeError ρ
  | index, [], items, r => do
    checkSurplus total index items closing
    .ok r
  | index, field :: fields, n :: items, r => do
    let r ← field.store n r
    readItems t total closing (index + 1) fields items r
  | index, field :: fields, [], r =>
    match closing.error? with
    | some e => .error e.toDecodeError
    | none =>
      if field.need = .defaulted then readItems t total closing (index + 1) fields [] r
      else .error ⟨.wrongLength index t.elements, closing.stop?⟩

/-- The record of an object with the given `members`, of which those of no known name go to `other`.
A text that breaks off is reported before a field that is missing. -/
def decodeObject (t : RecordType ρ) (other : Member → ρ → Except DecodeError ρ)
    (members : List Member) (closing : Closing) : Except DecodeError ρ := do
  let (seen, r) ← readMembers t.fields other [] t.empty members
  match closing.error?, missing? t.fields seen with
  | some e, _ => .error e.toDecodeError
  | none, some name => .error ⟨.missingField name, closing.stop?⟩
  | none, none => .ok r

/-- The record of the type `t` that a node is: an object by the names of its fields, or an array by
their positions. -/
def decode (t : RecordType ρ) : Decoder ρ
  | .object _ members closing => t.decodeObject skipMember members closing
  | .array _ items closing =>
    t.readItems items.length closing 0 t.fields items t.empty
  | n => .error (n.unexpected ("struct " ++ t.name))

end RecordType

end WorkflowTemplates.Json
