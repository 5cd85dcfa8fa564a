import WorkflowTemplates.Decimal.Integer
import WorkflowTemplates.Decimal.Numeral

/-!
# Dates and times in TOML

A date, a time, or both with or without an offset. As a setting it is a text in one form: `T`
between date and time, at most nine places of seconds without trailing zeros, `Z` or a signed
offset. A moment is written in a document as it is (`readMoment?`), or given as a text of its own
(`momentOf?`), for which the hour may be 24 and the offset any number of minutes up to a day.
-/

namespace WorkflowTemplates.Toml

open Decimal (digitsValue)

/-- The first `count` characters of a text, if they are all digits, and what follows them. -/
def takeDigits? (count : Nat) (s : List Char) : Option (List Char × List Char) :=
  let digits := s.take count
  if digits.length = count ∧ digits.all Text.isDigit then some (digits, s.drop count) else none

/-- Two digits whose value is from `low` to `high`, and what follows them. -/
def takePair? (low high : Nat) (s : List Char) : Option (List Char × List Char) :=
  (takeDigits? 2 s).filter fun (digits, _) =>
    low ≤ digitsValue digits && digitsValue digits ≤ high

/-- The text behind the character `c`, if it stands at the front. -/
def behind? (c : Char) : List Char → Option (List Char)
  | [] => none
  | d :: s => if d = c then some s else none

/-- How many days a month of a year has in the Gregorian calendar. -/
def daysOf (year month : Nat) : Nat :=
  if month = 2 then
    if year % 4 = 0 ∧ (year % 100 ≠ 0 ∨ year % 400 = 0) then 29 else 28
  else if month ∈ [4, 6, 9, 11] then 30
  else 31

/-- A date at the front of a text, year, month and day between dashes, and what follows it. Month
and day must exist (`daysOf`). -/
def readDate? (s : List Char) : Option (List Char × List Char) := do
  let (year, s) ← takeDigits? 4 s
  let s ← behind? '-' s
  let (month, s) ← takePair? 1 12 s
  let s ← behind? '-' s
  let (day, s) ← takePair? 1 (daysOf (digitsValue year) (digitsValue month)) s
  return (year ++ '-' :: month ++ '-' :: day, s)

/-- The places of seconds, at most nine, without the zeros that end them; without any place left
there is no point. -/
def fractionText (digits : List Char) : List Char :=
  match ((digits.take 9).reverse.dropWhile (· == '0')).reverse with
  | [] => []
  | places => '.' :: places

/-- The places of seconds behind a point, if there is one, in the form of `fractionText`, and what
follows them. -/
def readFraction? : List Char → Option (List Char × List Char)
  | '.' :: s =>
    let digits := s.takeWhile Text.isDigit
    if digits.isEmpty then none else some (fractionText digits, s.dropWhile Text.isDigit)
  | s => some ([], s)

/-- A time at the front of a text whose hour is at most `lastHour`, and what follows it. A leap
second counts as the second 60 of any minute. -/
def readTime? (lastHour : Nat) (s : List Char) : Option (List Char × List Char) := do
  let (hour, s) ← takePair? 0 lastHour s
  let s ← behind? ':' s
  let (minute, s) ← takePair? 0 59 s
  let s ← behind? ':' s
  let (second, s) ← takePair? 0 60 s
  let (fraction, s) ← readFraction? s
  return (hour ++ ':' :: minute ++ ':' :: second ++ fraction, s)

/-- The offset behind a time, if there is one, and what follows it: `Z` in either case, or hours and
minutes behind a sign, which becomes a plus if they are zero. -/
def readOffset? : List Char → Option (List Char × List Char)
  | [] => some ([], [])
  | c :: s =>
    if c = 'Z' ∨ c = 'z' then some (['Z'], s)
    else if c = '+' ∨ c = '-' then do
      let (hour, s) ← takePair? 0 23 s
      let s ← behind? ':' s
      let (minute, s) ← takePair? 0 59 s
      let sign := if digitsValue (hour ++ minute) = 0 then '+' else c
      return (sign :: hour ++ ':' :: minute, s)
    else some ([], c :: s)

/-- Whether `c` may stand between date and time: `T` in either case, or a space. -/
def isMomentMark (c : Char) : Bool :=
  c == 'T' || c == 't' || c == ' '

/-- The time and the offset behind a date, and what follows them. Without a time behind the mark
(`isMomentMark`), the date ends before the mark. -/
def readClock? (s : List Char) : Option (List Char × List Char) :=
  match s with
  | c :: t =>
    if isMomentMark c && (takePair? 0 23 t).any (·.2.head? == some ':') then do
      let (time, t) ← readTime? 23 t
      let (offset, t) ← readOffset? t
      return ('T' :: time ++ offset, t)
    else some ([], s)
  | [] => some ([], [])

/-- Whether a date or a time starts at the front of a text, rather than a number. -/
def startsMoment (s : List Char) : Bool :=
  (takeDigits? 4 s).any (·.2.head? == some '-') || (takeDigits? 2 s).any (·.2.head? == some ':')

/-- A moment at the front of a text as a document has it, and what follows it: a date, a time, or
both with or without an offset. -/
def readMoment? (s : List Char) : Option (List Char × List Char) :=
  if (takeDigits? 4 s).isSome then do
    let (date, s) ← readDate? s
    let (clock, s) ← readClock? s
    return (date ++ clock, s)
  else readTime? 23 s

/-! ## Texts -/

/-- The number `n` in at least two digits. -/
def twoDigits (n : Nat) : List Char :=
  (if n < 10 then ['0'] else []) ++ Decimal.natural n

/-- The offset that a whole text is, in one form: none, `Z`, or hours and minutes that together are
at most a day. -/
def offsetOf? : List Char → Option (List Char)
  | [] => some []
  | ['Z'] | ['z'] => some ['Z']
  | c :: s => do
    if c ≠ '+' ∧ c ≠ '-' then none
    let (hours, s) ← takeDigits? 2 s
    let s ← behind? ':' s
    let (minutes, s) ← takeDigits? 2 s
    let total := 60 * digitsValue hours + digitsValue minutes
    if s ≠ [] ∨ 24 * 60 < total then none
    return (if total = 0 then '+' else c) :: twoDigits (total / 60) ++ ':' :: twoDigits (total % 60)

/-- The moment that the whole text `s` is, in one form. Here the hour may be 24, and a time without
a date has no offset. -/
def momentOf? (s : List Char) : Option (List Char) :=
  if s[2]? = some ':' then do
    let (time, rest) ← readTime? 24 s
    if rest.isEmpty then some time else none
  else do
    let (date, rest) ← readDate? s
    match rest with
    | [] => some date
    | c :: t =>
      if !isMomentMark c then none
      let (time, t) ← readTime? 24 t
      let offset ← offsetOf? t
      return date ++ 'T' :: time ++ offset

end WorkflowTemplates.Toml
