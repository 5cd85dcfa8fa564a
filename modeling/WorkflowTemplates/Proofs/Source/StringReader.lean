import WorkflowTemplates.Source.LiteralReader

/-!
# Reading strings character by character

What the reader of strings makes of a character depends on its state and on the two characters
behind: the character closes the string (`ClosesAt`), or it stands for some characters of the string
and leads to a next state (`Takes`), or it is a fault. A string is read only if its first character
does one of the first two (`readContent_cons_eq_ok`), so that statements about the content of
strings go by these cases and none of them opens the reader again.
-/

namespace WorkflowTemplates.Literal

variable {q : Quoting} {quote c : Char} {state state' : StringState}
  {chars read s s' t x rest : List Char} {left : Nat}

/-! ## Strings behind characters -/

/-- Nothing in front of a string leaves it as it is (`prepend`). -/
theorem prepend_nil (r : Except ReadFault (List Char × List Char)) : prepend [] r = r := by
  cases r <;> rfl

/-- Two texts in front of a string are one (`prepend`), which the reader adds character by
character. -/
theorem prepend_prepend (a b : List Char) (r : Except ReadFault (List Char × List Char)) :
    prepend a (prepend b r) = prepend (a ++ b) r := by
  cases r with
  | error e => rfl
  | ok result =>
    refine congrArg Except.ok (Prod.ext ?_ rfl)
    exact (List.append_assoc ..).symm

/-- A string that goes on with given characters is what is behind them, and these in front; so the
string without them is read as well. -/
theorem exists_of_prepend {r : Except ReadFault (List Char × List Char)}
    (h : prepend chars r = .ok (x, rest)) : ∃ y, r = .ok (y, rest) ∧ x = chars ++ y := by
  cases r with
  | error e => cases h
  | ok result =>
    cases h
    exact ⟨_, rfl, rfl⟩

/-! ## Closing quotes -/

/-- Two quotes behind a first one are the next two characters (`behindTwo?`). -/
theorem behindTwo?_eq_some (h : behindTwo? quote s = some t) : s = quote :: quote :: t := by
  unfold behindTwo? at h
  split at h
  · split at h
    · next hquotes =>
      obtain ⟨rfl, rfl⟩ := hquotes
      cases h
      rfl
    · cases h
  · cases h

/-- The character `c` closes a string before the text `s`: it is the quote of the string, and two
more follow if the string is long. -/
def ClosesAt (q : Quoting) (c : Char) (s : List Char) : Prop :=
  c = q.quote ∧ (q.long = true → (behindTwo? q.quote s).isSome = true)

/-- The text behind the quotes of which the first one stands before `s`: two more of them belong to
a long string. -/
def behindClosing (q : Quoting) (s : List Char) : List Char :=
  if q.long then s.drop 2 else s

/-- A character closes no string (`ClosesAt`) if neither of the tests of the reader says so, the one
for short and the one for long strings. -/
theorem not_closesAt_iff :
    ¬ClosesAt q c s ↔ ¬(c = q.quote && !q.long) = true
      ∧ ¬(c = q.quote && (behindTwo? q.quote s).isSome) = true := by
  by_cases hc : c = q.quote
  · cases hlong : q.long <;> simp [ClosesAt, hc, hlong]
  · simp [ClosesAt, hc]

/-- Where a string is closed, nothing more of it is read, and what is left is `behindClosing`. -/
theorem ClosesAt.readContent_eq (h : ClosesAt q c s) :
    readContent q .plain (c :: s) = .ok ([], behindClosing q s) := by
  obtain ⟨hc, hsome⟩ := h
  rw [readContent, behindClosing]
  cases hlong : q.long with
  | false => simp [hc]
  | true => simp [hc, hsome hlong]

/-! ## Characters inside a string -/

/-- The character `c` before the text `s` stands for `chars` in a string, and the reader goes from
one state to the next. Behind a backslash that is not raw, the characters of `shortEscape?` and of
`escapeDigits?` are special, and of the digits of an escape only the last one adds a character. -/
inductive Takes (q : Quoting) :
    StringState → Char → List Char → List Char → StringState → Prop
  | char {c : Char} {s : List Char} (hopen : ¬ClosesAt q c s) (hbackslash : c ≠ '\\')
      (hbreak : q.long = false → c ≠ '\n') : Takes q .plain c s [c] .plain
  | backslash {s : List Char} (hopen : ¬ClosesAt q '\\' s) : Takes q .plain '\\' s [] .escape
  | raw {c : Char} {s : List Char} (hraw : q.raw = true) : Takes q .escape c s ['\\', c] .plain
  | short {c : Char} {s chars : List Char} (hraw : ¬q.raw = true)
      (hshort : shortEscape? c = some chars) : Takes q .escape c s chars .plain
  | numbered {c : Char} {s : List Char} {n : Nat} (hraw : ¬q.raw = true)
      (hshort : shortEscape? c = none) (hdigits : escapeDigits? c = some n) :
      Takes q .escape c s [] (.digits [] n)
  | unknown {c : Char} {s : List Char} (hraw : ¬q.raw = true) (hshort : shortEscape? c = none)
      (hdigits : escapeDigits? c = none) : Takes q .escape c s ['\\', c] .plain
  | digit {c : Char} {s read : List Char} {left : Nat} (hleft : 1 < left) :
      Takes q (.digits read left) c s [] (.digits (read ++ [c]) (left - 1))
  | lastDigit {c d : Char} {s read : List Char} {left : Nat} (hleft : ¬1 < left)
      (hvalue : escapeValue? (read ++ [c]) = some d) : Takes q (.digits read left) c s [d] .plain

/-- A character that is taken (`Takes`) is read off, and the string goes on in the next state. -/
theorem Takes.readContent_eq (h : Takes q state c s chars state') :
    readContent q state (c :: s) = prepend chars (readContent q state' s) := by
  cases h with
  | char hopen hbackslash hbreak =>
    obtain ⟨hshort, hlong⟩ := not_closesAt_iff.1 hopen
    have hline : ¬(c = '\n' && !q.long) = true := by
      intro hline
      obtain ⟨hc, hl⟩ : c = '\n' ∧ q.long = false := by simpa using hline
      exact hbreak hl hc
    rw [readContent, if_neg hshort, if_neg hlong, if_neg hline, if_neg hbackslash]
  | backslash hopen =>
    obtain ⟨hshort, hlong⟩ := not_closesAt_iff.1 hopen
    rw [readContent, if_neg hshort, if_neg hlong, if_neg (by simp), if_pos rfl, prepend_nil]
  | raw hraw => rw [readContent, if_pos hraw]
  | short hraw hshort => rw [readContent, if_neg hraw, hshort]
  | numbered hraw hshort hdigits => rw [readContent, if_neg hraw, hshort, hdigits, prepend_nil]
  | unknown hraw hshort hdigits => rw [readContent, if_neg hraw, hshort, hdigits]
  | digit hleft => rw [readContent, if_pos hleft, prepend_nil]
  | lastDigit hleft hvalue => rw [readContent, if_neg hleft, hvalue]

/-- Of the text behind a character only matters whether the character closes the string there
(`hcloses`), so another text may be put in its place. -/
theorem Takes.of_closesAt_imp (h : Takes q state c s chars state')
    (hcloses : ClosesAt q c s' → ClosesAt q c s) : Takes q state c s' chars state' := by
  cases h with
  | char hopen hbackslash hbreak => exact .char (fun h => hopen (hcloses h)) hbackslash hbreak
  | backslash hopen => exact .backslash fun h => hopen (hcloses h)
  | raw hraw => exact .raw hraw
  | short hraw hshort => exact .short hraw hshort
  | numbered hraw hshort hdigits => exact .numbered hraw hshort hdigits
  | unknown hraw hshort hdigits => exact .unknown hraw hshort hdigits
  | digit hleft => exact .digit hleft
  | lastDigit hleft hvalue => exact .lastDigit hleft hvalue

/-! ## One state after the other -/

/-- Between characters, a character that does not close the string is taken if it may stand there,
that is, if the string is read at all (`ClosesAt`). -/
theorem exists_takes_plain (h : readContent q .plain (c :: s) = .ok (x, rest))
    (hopen : ¬ClosesAt q c s) : ∃ chars state', Takes q .plain c s chars state' := by
  by_cases hbackslash : c = '\\'
  · subst hbackslash
    exact ⟨_, _, .backslash hopen⟩
  · refine ⟨_, _, .char hopen hbackslash fun hlong hline => ?_⟩
    obtain ⟨hshort, hlong'⟩ := not_closesAt_iff.1 hopen
    rw [readContent, if_neg hshort, if_neg hlong', if_pos (by simp [hlong, hline])] at h
    cases h

/-- Behind a backslash every character is taken: in raw strings, as an escape, or as it is written
(`Takes`). -/
theorem exists_takes_escape (q : Quoting) (c : Char) (s : List Char) :
    ∃ chars state', Takes q .escape c s chars state' := by
  by_cases hraw : q.raw = true
  · exact ⟨_, _, .raw hraw⟩
  cases hshort : shortEscape? c with
  | some chars => exact ⟨_, _, .short hraw hshort⟩
  | none =>
    cases hdigits : escapeDigits? c with
    | some n => exact ⟨_, _, .numbered hraw hshort hdigits⟩
    | none => exact ⟨_, _, .unknown hraw hshort hdigits⟩

/-- Among the digits of an escape a character is taken unless it is the last one of digits that
stand for no character (`Takes`). -/
theorem exists_takes_digits (h : readContent q (.digits read left) (c :: s) = .ok (x, rest)) :
    ∃ chars state', Takes q (.digits read left) c s chars state' := by
  by_cases hleft : 1 < left
  · exact ⟨_, _, .digit hleft⟩
  cases hvalue : escapeValue? (read ++ [c]) with
  | some d => exact ⟨_, _, .lastDigit hleft hvalue⟩
  | none =>
    rw [readContent, if_neg hleft, hvalue] at h
    cases h

/-- **What the first character of a string does**: it closes the string, or it is taken and the rest
of the string is read in the next state. -/
theorem readContent_cons_eq_ok (h : readContent q state (c :: s) = .ok (x, rest)) :
    (state = .plain ∧ ClosesAt q c s ∧ x = [] ∧ rest = behindClosing q s)
      ∨ ∃ chars state' y, Takes q state c s chars state'
        ∧ readContent q state' s = .ok (y, rest) ∧ x = chars ++ y := by
  have htaken (htakes : ∃ chars state', Takes q state c s chars state') :
      ∃ chars state' y, Takes q state c s chars state'
        ∧ readContent q state' s = .ok (y, rest) ∧ x = chars ++ y := by
    obtain ⟨chars, state', htakes⟩ := htakes
    rw [htakes.readContent_eq] at h
    obtain ⟨y, hy, hx⟩ := exists_of_prepend h
    exact ⟨chars, state', y, htakes, hy, hx⟩
  cases state with
  | plain =>
    by_cases hcloses : ClosesAt q c s
    · rw [hcloses.readContent_eq] at h
      cases h
      exact .inl ⟨rfl, hcloses, rfl, rfl⟩
    · exact .inr (htaken (exists_takes_plain h hcloses))
  | escape => exact .inr (htaken (exists_takes_escape q c s))
  | digits read left => exact .inr (htaken (exists_takes_digits h))

end WorkflowTemplates.Literal
