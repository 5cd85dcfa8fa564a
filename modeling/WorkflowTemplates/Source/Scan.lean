/-!
# Scanning source text

A scanner reads source text one character at a time and knows whether it is in code, in a comment or
in a string, and how many brackets are open. A string is short or long: a short one ends at its
quote or where its line ends, a long one, which three quotes open, at three quotes. In both a
backslash takes the next character with it. Quotes, strings and comments are no code; the line end
behind a comment or an unclosed short string is.

On it rest splitting at separators outside brackets, strings and comments (`splitTop`), and finding
the first place in code that satisfies a test (`breakAt`).
-/

namespace WorkflowTemplates.Source

/-- What the scanner is in: code, a comment, or a string of Python in one of its states. -/
inductive Mode
  | code
  | comment
  /-- Behind the first quote of a string. -/
  | opening (quote : Char)
  /-- Behind two quotes: a closed empty string, unless a third quote opens a long one. -/
  | openingTwo (quote : Char)
  | short (quote : Char)
  | shortEscape (quote : Char)
  /-- In a long string, behind so many quotes in a row, of which the third closes it. -/
  | long (quote : Char) (quotes : Nat)
  | longEscape (quote : Char)
  deriving DecidableEq

/-- The state of the scanner between two characters: the number of open brackets and the `Mode`. -/
structure ScanState where
  depth : Nat
  mode : Mode
  deriving DecidableEq

/-- Whether `c` is a quote of strings, single or double. -/
def isQuote (c : Char) : Bool :=
  c == '"' || c == '\''

/-- Whether `c` is a bracket that opens; all kinds count alike. -/
def isOpening (c : Char) : Bool :=
  c == '(' || c == '[' || c == '{'

/-- Whether `c` is a bracket that closes; all kinds count alike, also for one of another kind. -/
def isClosing (c : Char) : Bool :=
  c == ')' || c == ']' || c == '}'

namespace ScanState

/-- The state before a text: in code, no bracket open. -/
def start : ScanState := ⟨0, .code⟩

/-- The state behind the character `c` where code may stand, inside `depth` brackets. A bracket that
closes none is ignored. -/
def nextInCode (depth : Nat) (c : Char) : ScanState :=
  if c = '#' then ⟨depth, .comment⟩
  else if isQuote c then ⟨depth, .opening c⟩
  else if isOpening c then ⟨depth + 1, .code⟩
  else if isClosing c then ⟨depth - 1, .code⟩
  else ⟨depth, .code⟩

/-- The mode behind the character `c` of a short string, which ends at its `quote` or where its line
ends. -/
def nextInShort (quote c : Char) : Mode :=
  if c = quote then .code
  else if c = '\\' then .shortEscape quote
  else if c = '\n' then .code
  else .short quote

/-- The state behind the character `c`. Brackets count in code only, and a backslash takes the next
character with it in strings only. -/
def next (s : ScanState) (c : Char) : ScanState :=
  match s.mode with
  | .code => nextInCode s.depth c
  | .comment => if c = '\n' then ⟨s.depth, .code⟩ else s
  | .opening q => ⟨s.depth, if c = q then .openingTwo q else nextInShort q c⟩
  | .openingTwo q => if c = q then ⟨s.depth, .long q 0⟩ else nextInCode s.depth c
  | .short q => ⟨s.depth, nextInShort q c⟩
  | .shortEscape q => ⟨s.depth, .short q⟩
  | .long q n =>
    ⟨s.depth,
      if c = q then (if n = 2 then .code else .long q (n + 1))
      else if c = '\\' then .longEscape q
      else .long q 0⟩
  | .longEscape q => ⟨s.depth, .long q 0⟩

/-- Whether the character `c` is code in the state `s`: not in a string or comment, and none of the
marks that start one. The end of a line behind a comment or an unclosed short string is. -/
def isCode (s : ScanState) (c : Char) : Bool :=
  match s.mode with
  | .code => c != '#' && !isQuote c
  | .comment | .opening _ | .short _ => c == '\n'
  | .openingTwo _ => c != '#' && !isQuote c
  | .shortEscape _ | .long .. | .longEscape _ => false

/-- Whether the character `c` is code outside all brackets in the state `s` (`isCode`). -/
def isTop (s : ScanState) (c : Char) : Bool :=
  s.depth == 0 && s.isCode c

/-- The state behind a text, character by character (`next`). -/
def run (s : ScanState) (text : List Char) : ScanState :=
  text.foldl next s

@[simp]
theorem run_nil (s : ScanState) : s.run [] = s := rfl

@[simp]
theorem run_cons (s : ScanState) (c : Char) (text : List Char) :
    s.run (c :: text) = (s.next c).run text := rfl

theorem run_append (s : ScanState) (a b : List Char) : s.run (a ++ b) = (s.run a).run b :=
  List.foldl_append

end ScanState

/-- The text before and behind the first code character (`isCode`) that passes the `test`, which is
given the number of open brackets. -/
def breakAt (test : Nat → Char → Bool) : ScanState → List Char → Option (List Char × List Char)
  | _, [] => none
  | s, c :: text =>
    if s.isCode c && test s.depth c then some ([], text)
    else (breakAt test (s.next c) text).map fun (before, behind) => (c :: before, behind)

/-- The pieces of a text between the separators `sep` that stand outside brackets, strings and
comments (`isTop`), from a state on. There is always a last piece, if only an empty one. -/
def splitFrom (sep : Char) : ScanState → List Char → List (List Char)
  | _, [] => [[]]
  | s, c :: text =>
    if s.isTop c && c == sep then [] :: splitFrom sep (s.next c) text
    else (splitFrom sep (s.next c) text).modifyHead (c :: ·)

/-- The pieces of `text` between the separators `sep` that stand outside brackets, strings and
comments, by the lexical rules of Python; one more than there are such separators (`countTop`). -/
def splitTop (sep : Char) (text : List Char) : List (List Char) :=
  splitFrom sep .start text

/-- The number of separators `sep` in a text that stand outside brackets, strings and comments
(`isTop`), from a state on. -/
def countTop (sep : Char) : ScanState → List Char → Nat
  | _, [] => 0
  | s, c :: text => (if s.isTop c && c == sep then 1 else 0) + countTop sep (s.next c) text

end WorkflowTemplates.Source
