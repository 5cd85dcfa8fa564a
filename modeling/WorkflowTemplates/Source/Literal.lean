import WorkflowTemplates.Value.Basic

/-!
# Literals

A literal is a value written in source text: scalars, lists, dictionaries, and calls with named
arguments. `Literal.written` writes one as source text that reads back; a literal may also stand for
a text (`text?`) or for a JSON value (`toJson`).
-/

namespace WorkflowTemplates

/-- A value written in source text: a scalar, a list, a dictionary, or a call with named arguments.
Tuples are lists. -/
inductive Literal
  | string (s : String)
  | integer (i : Int64)
  | float (x : Binary64)
  | complex (z : Complex)
  | boolean (b : Bool)
  | nothing
  | list (items : List Literal)
  | dict (entries : List (Literal × Literal))
  | call (name : String) (arguments : List (String × Literal))

/-- Why a literal has no JSON value (`Literal.toJson`). -/
inductive LiteralFault
  | notInJson (number : String)
  | keyNotScalar
  | complexInJson
  | callInJson (name : String)
  deriving DecidableEq

/-- The wording of a fault, behind what it is about in the messages of defaults. -/
def LiteralFault.message : LiteralFault → String
  | notInJson number => number ++ " is not representable in JSON"
  | keyNotScalar => "dict keys must be scalars"
  | complexInJson => "complex numbers have no JSON representation"
  | callInJson name => "call to '" ++ name ++ "' is not a literal"

namespace Literal

/-- The text that a scalar stands for, as the encoding of the same value has it; other literals
stand for none. -/
def text? : Literal → Option String
  | string s => some s
  | integer i => some (integerText i)
  | float x => floatText? x
  | complex z => z.text?
  | boolean b => some (boolText b)
  | _ => none

/-- How `c` is written in a string between single quotes: behind a backslash if it would end the
string or its line. -/
def escapeChar (c : Char) : List Char :=
  if c = '\\' then ['\\', '\\']
  else if c = '\'' then ['\\', '\'']
  else if c = '\n' then ['\\', 'n']
  else if c = '\t' then ['\\', 't']
  else [c]

/-- The string `s` between single quotes, each character as `escapeChar` writes it. -/
def quoted (s : String) : List Char :=
  '\'' :: s.toList.flatMap escapeChar ++ ['\'']

mutual

/-- A literal as source text, in the usual writing of Python; a number that has no text is left out.
-/
def written : Literal → List Char
  | string s => quoted s
  | integer i => Decimal.integer i.toInt
  | float x => ((floatText? x).getD "").toList
  | complex z => (z.text?.getD "").toList
  | boolean b => (boolText b).toList
  | nothing => ['N', 'o', 'n', 'e']
  | list items => '[' :: writtenItems items ++ [']']
  | dict entries => '{' :: writtenEntries entries ++ ['}']
  | call name arguments => name.toList ++ '(' :: writtenArguments arguments ++ [')']

/-- The items of a list as source text, with a comma and a space between them. -/
def writtenItems : List Literal → List Char
  | [] => []
  | [l] => written l
  | l :: rest => written l ++ ',' :: ' ' :: writtenItems rest

/-- The keys and values of a dictionary as source text, with a comma and a space between them. -/
def writtenEntries : List (Literal × Literal) → List Char
  | [] => []
  | [(k, v)] => written k ++ ':' :: ' ' :: written v
  | (k, v) :: rest => written k ++ ':' :: ' ' :: written v ++ ',' :: ' ' :: writtenEntries rest

/-- The named arguments of a call as source text, with a comma and a space between them. -/
def writtenArguments : List (String × Literal) → List Char
  | [] => []
  | [(k, v)] => k.toList ++ '=' :: written v
  | (k, v) :: rest => k.toList ++ '=' :: written v ++ ',' :: ' ' :: writtenArguments rest

end

/-- The literal `l` as source text (`written`), as a string. -/
def display (l : Literal) : String :=
  String.ofList l.written

mutual

/-- The JSON value that a literal stands for. Keys are the texts of scalars (`text?`), of two
entries of one key the later one counts, and only finite numbers have a value. -/
def toJson : Literal → Except LiteralFault Json
  | string s => .ok (.string s)
  | integer i => .ok (.ofInt64 i)
  | float x =>
    match Json.Number.ofFloat? x with
    | some n => .ok (.number n)
    | none => .error (.notInJson (String.ofList (Decimal.FloatLayout.plain.text x)))
  | boolean b => .ok (.bool b)
  | nothing => .ok .null
  | list items => (itemsToJson items).map .array
  | dict entries => (entriesToJson entries).map Json.ofMembers
  | complex _ => .error .complexInJson
  | call name _ => .error (.callInJson name)

/-- The JSON values of items in their order, or the first fault. -/
def itemsToJson : List Literal → Except LiteralFault (List Json)
  | [] => .ok []
  | l :: rest => do
    let v ← toJson l
    let values ← itemsToJson rest
    .ok (v :: values)

/-- The members that entries stand for, in their order, or the first fault; the key of an entry
comes before its value. -/
def entriesToJson : List (Literal × Literal) → Except LiteralFault (List (String × Json))
  | [] => .ok []
  | (key, l) :: rest =>
    match text? key with
    | none => .error .keyNotScalar
    | some name => do
      let v ← toJson l
      let members ← entriesToJson rest
      .ok ((name, v) :: members)

end

end Literal

end WorkflowTemplates
