import WorkflowTemplates.Text.Hex

/-!
# Texts in TOML

A text stands between quotes: double ones, behind which a backslash starts an escape, or single
ones, between which every character stands for itself. Three quotes make a text that may run over
lines; a line feed directly behind them is no part of it, and carriage returns before line feeds are
dropped. One or two quotes may stand inside such a text, also at its end.
-/

namespace WorkflowTemplates.Toml

/-- Whether `c` is a blank inside a line: TOML knows the space and the tab. -/
def isSpace (c : Char) : Bool :=
  c == ' ' || c == '\t'

/-- Whether `c` may stand in texts and comments as it is, that is, is no control character but the
tab. -/
def isPlain (c : Char) : Bool :=
  c == '\t' || (' ' ≤ c && c != '\x7f')

/-- The state inside a text: between characters, where blanks and line feeds may have to be skipped;
behind a backslash; among the digits of an escape; or behind a backslash and blanks, of which a line
feed must follow. -/
inductive TextState
  | plain (skips : Bool)
  | escape
  | digits (left value : Nat)
  | lineEnd

/-- The character of an escape of one letter, by the grammar of TOML. -/
def shortEscape? : Char → Option Char
  | '"' => some '"'
  | '\\' => some '\\'
  | 'b' => some '\x08'
  | 'f' => some '\x0c'
  | 'n' => some '\n'
  | 'r' => some '\r'
  | 't' => some '\t'
  | _ => none

/-- The number of digits of an escape by number, by its letter. -/
def escapeDigits? : Char → Option Nat
  | 'u' => some 4
  | 'U' => some 8
  | _ => none

/-- The character whose number is `n`, if there is one; surrogates have none. -/
def charOf? (n : Nat) : Option Char :=
  if h : n.isValidChar then some (Char.ofNatAux n h) else none

/-- The quotes that belong to the content of a text of three quotes although they stand behind it,
at most two, and the text behind them. -/
def lastQuotes (quote : Char) : List Char → List Char × List Char
  | a :: b :: s =>
    if a = quote ∧ b = quote then ([a, b], s)
    else if a = quote then ([a], b :: s)
    else ([], a :: b :: s)
  | [a] => if a = quote then ([a], []) else ([], [a])
  | [] => ([], [])

/-- The text behind two quotes that follow a first one, if they do. -/
def behindTwo? (quote : Char) : List Char → Option (List Char)
  | a :: b :: s => if a = quote ∧ b = quote then some s else none
  | _ => none

/-- The content with the character `c` in front, and what follows it. -/
def consText (c : Char) (r : Option (List Char × List Char)) : Option (List Char × List Char) :=
  r.map fun (text, rest) => (c :: text, rest)

/-- Whether `c` is a carriage return before a line feed, which belong together as the end of a line.
-/
def isReturn (c : Char) (s : List Char) : Bool :=
  c == '\r' && s.head? == some '\n'

/-- The characters of a text up to its closing quotes, and what follows them. The flag `long` tells
that three quotes stand around it, and `quote` whether there are escapes. -/
def readContent (quote : Char) (long : Bool) :
    TextState → List Char → Option (List Char × List Char)
  | _, [] => none
  | .plain skips, c :: s =>
    if skips && (isSpace c || c == '\n' || isReturn c s) then readContent quote long (.plain true) s
    else if c = quote then
      if long then
        match behindTwo? quote s with
        | some t => some (lastQuotes quote t)
        | none => consText c (readContent quote long (.plain false) s)
      else some ([], s)
    else if c = '\\' ∧ quote = '"' then readContent quote long .escape s
    else if long && isReturn c s then readContent quote long (.plain false) s
    else if isPlain c || (c == '\n' && long) then
      consText c (readContent quote long (.plain false) s)
    else none
  | .escape, c :: s =>
    match shortEscape? c, escapeDigits? c with
    | some d, _ => consText d (readContent quote long (.plain false) s)
    | none, some n => readContent quote long (.digits n 0) s
    | none, none =>
      if long && c == '\n' then readContent quote long (.plain true) s
      else if long && (isSpace c || isReturn c s) then readContent quote long .lineEnd s
      else none
  | .digits left value, c :: s =>
    match Text.Hex.digitValue? c with
    | none => none
    | some d =>
      if 1 < left then readContent quote long (.digits (left - 1) (16 * value + d)) s
      else (charOf? (16 * value + d)).bind fun d =>
        consText d (readContent quote long (.plain false) s)
  | .lineEnd, c :: s =>
    if c = '\n' then readContent quote long (.plain true) s
    else if isSpace c || isReturn c s then readContent quote long .lineEnd s
    else none

/-- The text without the end of a line that starts it, which is no part of a content between three
quotes. -/
def dropBreak : List Char → List Char
  | '\n' :: s => s
  | '\r' :: '\n' :: s => s
  | s => s

/-- A text on one line from behind its quote on, and what follows it. -/
def readShortText (quote : Char) (s : List Char) : Option (String × List Char) :=
  (readContent quote false (.plain false) s).map fun (text, rest) => (String.ofList text, rest)

/-- A text of one or three quotes from behind its first quote on (`readContent`), and what follows
it. -/
def readText (quote : Char) (s : List Char) : Option (String × List Char) :=
  match behindTwo? quote s with
  | some t =>
    (readContent quote true (.plain false) (dropBreak t)).map fun (text, rest) =>
      (String.ofList text, rest)
  | none => readShortText quote s

end WorkflowTemplates.Toml
