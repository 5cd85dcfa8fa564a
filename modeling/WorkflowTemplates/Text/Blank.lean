/-!
# Blank characters

A character is blank when it has the property White_Space. Trimming removes blank characters from
the ends of a text, and a text of blank characters alone is a blank line.
-/

namespace WorkflowTemplates.Text

/-- Whether `c` has the Unicode property `White_Space`: the five controls from tab to carriage
return, space, next line, no-break space, and the spaces and separators above them. -/
def isBlank (c : Char) : Bool :=
  c == ' ' || ('\t' ≤ c && c ≤ '\r') || c == '\u0085' || c == '\u00a0' || c == '\u1680'
    || ('\u2000' ≤ c && c ≤ '\u200a') || c == '\u2028' || c == '\u2029' || c == '\u202f'
    || c == '\u205f' || c == '\u3000'

/-- The text `s` without its leading blank characters, in the sense of `isBlank`. -/
def trimStart (s : List Char) : List Char :=
  s.dropWhile isBlank

/-- The text `s` without its trailing blank characters, in the sense of `isBlank`. -/
def trimEnd (s : List Char) : List Char :=
  (s.reverse.dropWhile isBlank).reverse

/-- The text `s` without blank characters at either end: `trimStart`, then `trimEnd`. -/
def trim (s : List Char) : List Char :=
  trimEnd (trimStart s)

/-- Whether a line is blank: every character of it is (`isBlank`), so the empty line counts. -/
def isBlankLine (s : List Char) : Bool :=
  s.all isBlank

theorem trimStart_eq_nil_iff (s : List Char) : trimStart s = [] ↔ isBlankLine s = true := by
  induction s with
  | nil => simp [trimStart, isBlankLine]
  | cons c s ih =>
    simp only [trimStart, isBlankLine, List.dropWhile_cons, List.all_cons] at ih ⊢
    cases h : isBlank c <;> simp [ih]

end WorkflowTemplates.Text
