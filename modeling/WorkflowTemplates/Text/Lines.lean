import WorkflowTemplates.Text.Blank

/-!
# Lines and their margin

The lines of a text end at a line feed or at a carriage return with a line feed, and a text that
ends in a line feed has no empty last line (`lines`). The margin of lines is the longest run of blank
characters that every line but the blank ones starts with (`margin`); removing it keeps the relative
indentation of the lines (`dedent`).
-/

namespace WorkflowTemplates.Text

/-! ## Lines -/

/-- The texts of `lines` joined by line feeds, with none before the first and none behind the last.
-/
def joinLines (lines : List (List Char)) : List Char :=
  List.intercalate ['\n'] lines

/-- The line without the carriage return that ends it, if one does; a line break is a line feed, or
a carriage return with a line feed. -/
def dropReturn (line : List Char) : List Char :=
  if line.getLast? = some '\r' then line.dropLast else line

/-- The lines among the pieces between line feeds: a piece that a line feed ends loses its carriage
return (`dropReturn`), and an empty last piece is no line. -/
def endedLines : List (List Char) → List (List Char)
  | [] => []
  | [last] => if last.isEmpty then [] else [last]
  | piece :: rest => dropReturn piece :: endedLines rest

/-- The lines of the text `s`: its pieces between line feeds without the marks that end them
(`endedLines`). -/
def lines (s : List Char) : List (List Char) :=
  endedLines (s.splitOn '\n')

/-- The first line of the text `s`, up to its line feed; a carriage return before it is kept. -/
def firstLine (s : List Char) : List Char :=
  s.takeWhile (· != '\n')

/-- The number of line feeds in the text `s`, which is the number of lines that it starts after the
first. -/
def countBreaks (s : List Char) : Nat :=
  s.count '\n'

/-! ## Margins -/

/-- The run of blank characters (`isBlank`) that a line starts with: its indentation. -/
def leadingBlank (line : List Char) : List Char :=
  line.takeWhile isBlank

/-- The number of blank characters that a line starts with (`leadingBlank`); a tab counts as one. -/
def indentWidth (line : List Char) : Nat :=
  (leadingBlank line).length

/-- The longest text that two texts both start with, character by character; with an empty text it
is empty. -/
def commonPrefix : List Char → List Char → List Char
  | a :: s, b :: t => if a = b then a :: commonPrefix s t else []
  | _, _ => []

/-- The margin of `lines`: the longest text that the indentations (`leadingBlank`) of all lines but
the blank ones start with. If every line is blank it is empty. -/
def margin (lines : List (List Char)) : List Char :=
  match (lines.filter (!isBlankLine ·)).map leadingBlank with
  | [] => []
  | first :: rest => rest.foldl commonPrefix first

/-- The line without the `margin`, which it starts with, and without trailing blank characters. A
blank line becomes empty, whatever its characters are. -/
def withoutMargin (margin line : List Char) : List Char :=
  if isBlankLine line then [] else trimEnd (line.drop margin.length)

/-- The text of `lines` without their common `margin`, each line ended by a line feed; the
indentation behind the margin is kept. -/
def dedent (lines : List (List Char)) : List Char :=
  lines.flatMap fun line => withoutMargin (margin lines) line ++ ['\n']

theorem commonPrefix_prefix_left (s t : List Char) : commonPrefix s t <+: s := by
  induction s generalizing t with
  | nil => simp [commonPrefix]
  | cons a s ih =>
    cases t with
    | nil => simp [commonPrefix]
    | cons b t =>
      simp only [commonPrefix]
      split
      · exact List.cons_prefix_cons.2 ⟨rfl, ih t⟩
      · simp

theorem commonPrefix_comm (s t : List Char) : commonPrefix s t = commonPrefix t s := by
  induction s generalizing t with
  | nil => cases t <;> simp [commonPrefix]
  | cons a s ih =>
    cases t with
    | nil => simp [commonPrefix]
    | cons b t =>
      by_cases h : a = b
      · subst h; simp [commonPrefix, ih]
      · simp [commonPrefix, h, Ne.symm h]

end WorkflowTemplates.Text
