import WorkflowTemplates.Decimal.Layout
import WorkflowTemplates.Json.Basic
import WorkflowTemplates.Schema.Parameter

/-!
# Values and their types

A value is what a parameter has by default or what a call passes for it. Its type (`TypeTag`), or
the declared one, puts it into a category (`Category`), which decides how it travels: as its own
text, as a written scalar, as a reference that the engine follows, or packed.

How scalars are written is settled here for all categories: floating-point numbers by a layout
(`Value.floatLayout`), and only if they are finite. A declared parameter (`Declaration`) is a name,
a type and perhaps a default.
-/

namespace WorkflowTemplates

/-- The declared type of a parameter, as a type hint of Python names it. -/
inductive TypeTag
  | string
  | integer
  | float
  | boolean
  | complex
  /-- A closed set of texts, in the order in which they are written. -/
  | choice (values : List String)
  /-- A value that the engine looks up (`ValueFrom`). -/
  | reference
  /-- Any other type, by the text of its hint. -/
  | custom (name : String)
  deriving DecidableEq

/-- How values travel: the rows of the table that `encode` follows. -/
inductive Category
  /-- As their own text; scripts put it between quotes. -/
  | text
  /-- As a written scalar; scripts use it as it is. -/
  | scalar
  /-- As a reference, never as a text. -/
  | reference
  /-- As the hexadecimal bytes of their JSON text; scripts unpack them. -/
  | packed
  deriving DecidableEq

/-- A complex number, of two numbers of the format binary64. -/
structure Complex where
  re : Binary64
  im : Binary64
  deriving DecidableEq

/-- A default of a parameter or an argument of a call. Lists and dictionaries are JSON values. -/
inductive Value
  | string (s : String)
  | integer (i : Int64)
  | float (x : Binary64)
  | boolean (b : Bool)
  | complex (z : Complex)
  | reference (v : ValueFrom)
  | json (v : Json)
  deriving DecidableEq

/-- The category of the values of a type, whatever the value is. -/
def TypeTag.category : TypeTag → Category
  | string | choice _ => .text
  | integer | float | boolean | complex => .scalar
  | reference => .reference
  | custom _ => .packed

/-- The name of a type, as a type hint writes it. -/
def TypeTag.display : TypeTag → String
  | string => "str"
  | integer => "int"
  | float => "float"
  | boolean => "bool"
  | complex => "complex"
  | choice values => "Literal[" ++ ", ".intercalate values ++ "]"
  | reference => "ValueFrom"
  | custom name => name

/-- The allowed texts of a type, if it is a closed set (`TypeTag.choice`). -/
def TypeTag.choices? : TypeTag → Option (List String)
  | choice values => some values
  | _ => none

/-- The name of a category, as users of the library know it. -/
def Category.name : Category → String
  | text => "text"
  | scalar => "scalar"
  | reference => "reference"
  | packed => "opaque"

/-- The category of a value by itself, where no type is declared for it. -/
def Value.category : Value → Category
  | string _ => .text
  | integer _ | float _ | boolean _ | complex _ => .scalar
  | reference _ => .reference
  | json _ => .packed

/-- Whether a value is a reference, which the engine looks up. -/
def Value.isReference : Value → Bool
  | reference _ => true
  | _ => false

/-! ## Written scalars -/

/-- The layout of floating-point values: positional from `0.0001` to below `10 ^ 16`, whole ones
with `.0`, and exponents of at least two digits, as Python writes them. -/
def Value.floatLayout : Decimal.FloatLayout where
  tie := .up
  positional e := -4 ≤ e && e < 16
  pointZero := true
  exponentDigits := 2
  nan := "nan"

/-- The layout of the parts of complex values, which have no `.0`. -/
def Value.partLayout : Decimal.FloatLayout :=
  { Value.floatLayout with pointZero := false }

/-- The text of a truth value, as Python writes it. -/
def boolText (b : Bool) : String :=
  if b then "True" else "False"

/-- The text of the floating-point value `x` (`Value.floatLayout`); only finite ones have one. -/
def floatText? (x : Binary64) : Option String :=
  if x.isFinite then some (String.ofList (Value.floatLayout.text x)) else none

/-- The text of the complex value `z`, as Python writes it: the imaginary part alone if the real
part is zero without a minus sign, otherwise both in parentheses. Both parts must be finite. -/
def Complex.text? (z : Complex) : Option String :=
  if !(z.re.isFinite && z.im.isFinite) then none
  else if z.re.isZero && !z.re.isNegative then
    some (String.ofList (Value.partLayout.text z.im ++ ['j']))
  else
    some (String.ofList ('(' :: Value.partLayout.text z.re
      ++ (if z.im.isNegative then '-' else '+') :: Value.partLayout.text z.im.abs ++ ['j', ')']))

/-- The text of the integer value `i`, in decimal. -/
def integerText (i : Int64) : String :=
  String.ofList (Decimal.integer i.toInt)

/-- Whether the complex value `z` has finite parts, so that it has a text (`Complex.text?`). -/
def Complex.isFinite (z : Complex) : Bool :=
  z.re.isFinite && z.im.isFinite

theorem floatText?_isSome (x : Binary64) : (floatText? x).isSome = x.isFinite := by
  unfold floatText?
  split <;> simp_all

theorem Complex.text?_isSome (z : Complex) : z.text?.isSome = z.isFinite := by
  cases h : z.isFinite <;> simp only [Complex.isFinite] at h <;> simp only [Complex.text?, h]
  · rfl
  · simp only [Bool.not_true, Bool.false_eq_true, if_false]
    split <;> rfl

/-! ## Declared parameters -/

/-- A declared parameter of a template. Without a type it is a string; without a default a call must
supply a value. -/
structure Declaration where
  name : String
  type : TypeTag := .string
  default : Option Value := none
  deriving DecidableEq

/-- Whether the default of the parameter `d` is a reference that the engine follows. -/
def Declaration.isReference (d : Declaration) : Bool :=
  d.default.any Value.isReference

/-- The type that the first of `declarations` called `name` has, if there is one. -/
def declaredType? (declarations : List Declaration) (name : String) : Option TypeTag :=
  (declarations.find? (·.name = name)).map (·.type)

end WorkflowTemplates
