import WorkflowTemplates.Json.Reader
import WorkflowTemplates.Value.Arguments
import WorkflowTemplates.Value.Basic

/-!
# Encoding values

A value becomes a text or stays a reference. One table of categories decides it, for defaults,
arguments of calls and items of loops alike: a declared type picks the row, and where none is
declared, or where it is the type of references, the value's own category does.

| Category  | Encoding                                   |
|-----------|--------------------------------------------|
| text      | the text itself                            |
| scalar    | the written scalar                         |
| reference | the look-up, never a text                  |
| packed    | the hexadecimal bytes of the JSON text     |

Packed texts are unpacked by `decodePacked?`.
-/

namespace WorkflowTemplates

/-- What becomes of a value: a text, or a reference that the engine follows. -/
inductive Encoded
  | literal (text : String)
  | reference (v : ValueFrom)
  deriving DecidableEq

/-- Why a value has no encoding, by the row of the table and the form of the value. -/
inductive EncodingFault
  | noLiteral (number : String)
  | notInJson (number : String)
  | complexNotFinite
  | complexInJson
  | compound (shown : String)
  | referenceAsLiteral
  | referenceAsJson
  | referenceAsItem
  deriving DecidableEq

/-- The wording of a fault, behind the name that `EncodingError.message` puts before it. -/
def EncodingFault.message : EncodingFault → String
  | noLiteral number => number ++ " has no literal form"
  | notInJson number => number ++ " is not representable in JSON"
  | complexNotFinite => "complex value is not finite"
  | complexInJson => "complex numbers have no JSON representation"
  | compound shown => "compound value " ++ shown ++ " cannot be used where a scalar is declared"
  | referenceAsLiteral => "a reference cannot be rendered as a literal"
  | referenceAsJson => "a reference cannot be serialized as a value"
  | referenceAsItem => "a reference cannot be a loop item"

/-- The fault of a value that has no encoding, and the name of the parameter for which it was given.
-/
structure EncodingError where
  parameter : String
  fault : EncodingFault
  deriving DecidableEq

/-- The wording of an encoding error. -/
def EncodingError.message (e : EncodingError) : String :=
  "Cannot encode '" ++ e.parameter ++ "': " ++ e.fault.message

/-- The first `limit` characters of `text`, with a mark behind them if something was cut off. -/
def shorten (text : String) (limit : Nat) : String :=
  if limit < text.length then String.ofList (text.toList.take limit) ++ "[...]" else text

/-- The row of the table for `value`: references have their own; any other value has that of its
declared type, or its own if none is declared or the declared type is that of references. -/
def categoryFor (value : Value) (declared : Option TypeTag) : Category :=
  if value.isReference then .reference
  else match declared.map TypeTag.category with
    | none | some .reference => value.category
    | some category => category

/-- The text of the floating-point number `x` in messages, in the layout of plain numbers. -/
def plainText (x : Binary64) : String :=
  String.ofList (Decimal.FloatLayout.plain.text x)

/-- The text of a JSON scalar, written like the value of its own type; null, arrays and objects have
none. -/
def jsonScalar : Json → Except EncodingFault String
  | .string s => .ok s
  | .bool b => .ok (boolText b)
  | .number (.integer i) => .ok (String.ofList (Decimal.integer i.value))
  | .number (.float x _) => .ok (String.ofList (Value.floatLayout.text x))
  | v => .error (.compound (shorten v.compact 40))

/-- The text of a value in the row of scalars: strings as they are, numbers and truth values in the
writing of Python. -/
def scalarLiteral : Value → Except EncodingFault String
  | .string s => .ok s
  | .integer i => .ok (integerText i)
  | .float x =>
    match floatText? x with
    | some text => .ok text
    | none => .error (.noLiteral (plainText x))
  | .boolean b => .ok (boolText b)
  | .complex z =>
    match z.text? with
    | some text => .ok text
    | none => .error .complexNotFinite
  | .json v => jsonScalar v
  | .reference _ => .error .referenceAsLiteral

/-- The text of a value in the row of texts: strings of both kinds as they are, and other values as
in the row of scalars. -/
def textLiteral : Value → Except EncodingFault String
  | .string s => .ok s
  | .json (.string s) => .ok s
  | v => scalarLiteral v

/-- The JSON value that stands for a value in the row of packed ones; complex numbers, numbers that
are not finite and references have none. -/
def Value.toJson : Value → Except EncodingFault Json
  | .string s => .ok (.string s)
  | .integer i => .ok (.ofInt64 i)
  | .float x =>
    match Json.Number.ofFloat? x with
    | some n => .ok (.number n)
    | none => .error (.notInJson (plainText x))
  | .boolean b => .ok (.bool b)
  | .complex _ => .error .complexInJson
  | .json v => .ok v
  | .reference _ => .error .referenceAsJson

/-- The packed text of the JSON value `v`: the hexadecimal bytes of its compact text. -/
def packed (v : Json) : String :=
  String.ofList (Text.Hex.encode v.toBytes)

/-- The text of a value in the row `category`, or the fault of a value that has none there. -/
def literalIn (category : Category) (value : Value) : Except EncodingFault String :=
  match category with
  | .packed => value.toJson.map packed
  | .scalar => scalarLiteral value
  | .text | .reference => textLiteral value

/-- The encoding of `value` under a declared type, if there is one; the name only goes into errors.
A reference stays one, and any other value becomes the text of its row (`categoryFor`, `literalIn`).
-/
def encode (name : String) (value : Value) (declared : Option TypeTag) :
    Except EncodingError Encoded :=
  match value with
  | .reference v => .ok (.reference v)
  | value =>
    match literalIn (categoryFor value declared) value with
    | .ok text => .ok (.literal text)
    | .error fault => .error ⟨name, fault⟩

/-- The encoding of the default of the parameter `d` by its declared type (`encode`), if it has a
default. -/
def Declaration.encodeDefault (d : Declaration) : Except EncodingError (Option Encoded) :=
  match d.default with
  | none => .ok none
  | some value => (encode d.name value (some d.type)).map some

/-- The parameter of a call that carries an encoded value under `name`: a text as its value, a
reference as its source. -/
def Encoded.toArgument (name : String) : Encoded → Parameter
  | literal text => { name, value := some text }
  | reference v => { name, valueFrom := some v }

/-- The parameters of a call with the given entries, in their order, or the error of the first entry
that has no encoding (`encode`). -/
def resolveEntries (declared : String → Option TypeTag) :
    List (String × Value) → Except EncodingError (List Parameter)
  | [] => .ok []
  | (name, value) :: rest => do
    let encoded ← encode name value (declared name)
    let parameters ← resolveEntries declared rest
    .ok (encoded.toArgument name :: parameters)

/-- The parameters of a call with the arguments `a`, whose types are `declared` by name
(`resolveEntries`). -/
def Arguments.resolve (a : Arguments) (declared : String → Option TypeTag) :
    Except EncodingError (List Parameter) :=
  resolveEntries declared a.entries

/-- The JSON value of a packed text: its bytes, read as a JSON text in UTF-8. Anything else has
none. -/
def decodePacked? (text : String) : Option Json :=
  (Text.Hex.decode text.toList).bind Json.readBytes?

end WorkflowTemplates
