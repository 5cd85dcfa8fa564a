import WorkflowTemplates.Proofs.Source.ReadBack
import WorkflowTemplates.Proofs.Source.ValueScan

/-!
# Literals that are read

The readers give only literals that read back as they are written, floating-point and complex
numbers apart: the names of calls and arguments are names, and an integer is not the least one,
since its digits are read before its signs (`readNumber_numeric`). The induction follows the readers
(`readable_of_readValue`). So a literal without such numbers reads back exactly if it is readable
(`readable_iff_reads_back`), and what is written for a literal that was read from any text is read
as the same literal (`read_written_of_read`).
-/

namespace WorkflowTemplates.Literal

open Text (isDigit isLetter isWordChar)

variable {s t rest : List Char} {l : Literal}

/-! ## Literals without floating-point numbers -/

mutual

/-- No number in a literal is a floating-point or a complex one, whose decimal text may be read as
another number. -/
def IsExact : Literal → Prop
  | string _ | integer _ | boolean _ | nothing => True
  | float _ | complex _ => False
  | list items => IsExactItems items
  | dict entries => IsExactEntries entries
  | call _ arguments => IsExactArguments arguments

/-- `IsExact` of every item of a list, by recursion over the list. -/
def IsExactItems : List Literal → Prop
  | [] => True
  | l :: rest => IsExact l ∧ IsExactItems rest

/-- `IsExact` of every key and every value of a dictionary, by recursion over the entries. -/
def IsExactEntries : List (Literal × Literal) → Prop
  | [] => True
  | (k, v) :: rest => IsExact k ∧ IsExact v ∧ IsExactEntries rest

/-- `IsExact` of every argument of a call; nothing is asked of the names. -/
def IsExactArguments : List (String × Literal) → Prop
  | [] => True
  | (_, v) :: rest => IsExact v ∧ IsExactArguments rest

end

mutual

/-- No number in a literal that reads back (`Readable`) is a floating-point one, so what is asked
for by `IsExact` is no more. -/
theorem exact_of_readable : ∀ {l : Literal}, l.Readable → l.IsExact
  | string _, _ | integer _, _ | boolean _, _ | nothing, _ => trivial
  | float _, h | complex _, h => False.elim h
  | list _, h => exactItems_of_readable h
  | dict _, h => exactEntries_of_readable h
  | call _ _, h => exactArguments_of_readable h.2

theorem exactItems_of_readable : ∀ {items : List Literal}, ReadableItems items → IsExactItems items
  | [], _ => trivial
  | _ :: _, h => ⟨exact_of_readable h.1, exactItems_of_readable h.2⟩

theorem exactEntries_of_readable : ∀ {entries : List (Literal × Literal)},
    ReadableEntries entries → IsExactEntries entries
  | [], _ => trivial
  | (_, _) :: _, h =>
    ⟨exact_of_readable h.1, exact_of_readable h.2.1, exactEntries_of_readable h.2.2⟩

theorem exactArguments_of_readable : ∀ {arguments : List (String × Literal)},
    ReadableArguments arguments → IsExactArguments arguments
  | [], _ => trivial
  | (_, _) :: _, h => ⟨exact_of_readable h.2.1, exactArguments_of_readable h.2.2⟩

end

/-! ## Numbers -/

/-- A literal is a number; an integer is one of some kind `P`. -/
inductive Numeric (P : Int64 → Prop) : Literal → Prop
  | integer {i : Int64} (h : P i) : Numeric P (integer i)
  | float (x : Binary64) : Numeric P (float x)
  | complex (z : Complex) : Numeric P (complex z)

/-- A number that is not the least integer is readable, if it is exact, that is, an integer
(`Numeric`). -/
theorem Numeric.readable (h : Numeric (· ≠ Int64.minValue) l) (hexact : l.IsExact) :
    l.Readable := by
  cases h with
  | integer hi => exact hi
  | float x => cases hexact
  | complex z => cases hexact

/-- No sign comes first among the characters of a number (`numeralRun`), whether or not underscores
are dropped. -/
theorem head?_numeralRun (s : List Char) :
    ((numeralRun false s).1.filter (· != '_')).head? ≠ some '-' := by
  induction s with
  | nil => exact fun h => by cases h
  | cons c s ih =>
    rw [numeralRun]
    dsimp only
    split
    · next hc =>
      by_cases hunderscore : c = '_'
      · rw [List.filter_cons_of_neg (by simp [hunderscore])]
        exact ih
      · rw [List.filter_cons_of_pos (by simp [hunderscore]), List.head?_cons, Ne, Option.some.injEq]
        rintro rfl
        cases hc
    split
    · next hc =>
      have hne : c ≠ '-' := by
        rintro rfl
        cases hc
      have hunderscore : c ≠ '_' := by
        rintro rfl
        cases hc
      rw [List.filter_cons_of_pos (by simp [hunderscore]), List.head?_cons, Ne, Option.some.injEq]
      exact hne
    · exact fun h => by cases h

/-- A number of decimal digits is no negative integer if no sign comes first (`hdigits`). -/
theorem ofNumeral_numeric {digits : List Char} (hdigits : digits.head? ≠ some '-')
    (h : ofNumeral digits s = .ok (l, rest)) : Numeric (0 ≤ ·.toInt) l := by
  unfold ofNumeral at h
  dsimp only at h
  split at h
  · split at h <;> cases h
    exact .complex _
  · split at h <;> cases h
    exact .complex _
  split at h
  · split at h <;> cases h
    exact .float _
  split at h
  · next i hi =>
    cases h
    exact .integer (Decimal.readInteger_nonneg hdigits hi)
  · cases h

/-- A number without sign is no negative integer, in decimal or behind a mark (`Numeric`). -/
theorem readUnsigned_numeric (h : readUnsigned s = .ok (l, rest)) : Numeric (0 ≤ ·.toInt) l := by
  unfold readUnsigned at h
  split at h
  · next radix t _ =>
    dsimp only [readRadix] at h
    split at h
    · next i hi =>
      cases h
      refine .integer (Decimal.readInteger_nonneg (fun hhead => ?_) hi)
      have hmem := (List.mem_filter.1 (List.mem_of_head? hhead)).1
      have hpart := List.mem_takeWhile_imp hmem
      cases hpart
    · cases h
  · dsimp only at h
    split at h
    · cases h
    · exact ofNumeral_numeric (head?_numeralRun s) h

/-- A number that is not negative is not the least one, with either sign: the least integer has no
positive counterpart (`Numeric`). -/
theorem Numeric.signed (h : Numeric (0 ≤ ·.toInt) l) (negative : Bool) :
    Numeric (· ≠ Int64.minValue) (if negative then negated l else l) := by
  cases h with
  | @integer i hi =>
    have hne : i ≠ Int64.minValue := by
      rintro rfl
      exact absurd hi (by decide)
    have hneg : -i ≠ Int64.minValue := by
      intro h
      rw [← Int64.neg_neg (a := i), h] at hne
      exact hne rfl
    cases negative
    · exact .integer hne
    · exact .integer hneg
  | float x => cases negative <;> exact .float _
  | complex z => cases negative <;> exact .complex _

/-- **A number that is read is not the least integer**, whatever text it is read from (`Numeric`).
-/
theorem readNumber_numeric (h : readNumber s = .ok (l, rest)) :
    Numeric (· ≠ Int64.minValue) l := by
  rw [readNumber] at h
  obtain ⟨⟨l', middle⟩, hsigned, h⟩ := bind_eq_ok.1 h
  obtain ⟨⟨l'', _⟩, hunsigned, ⟨⟩⟩ := map_eq_ok.1 hsigned
  dsimp only at h
  split at h
  · cases h
    exact .complex _
  · cases h
    exact (readUnsigned_numeric hunsigned).signed _

/-! ## Values -/

/-- A name in front of the text behind it is the name of a call: its first character is a letter or
an underscore, and it stands for no value (`hnone`). -/
theorem isCallName_takeWhile {c : Char} (hc : (isLetter c || c == '_') = true)
    (hnone : named? (String.ofList ((c :: t).takeWhile isNameChar)) = none) :
    IsCallName (String.ofList ((c :: t).takeWhile isNameChar)) := by
  refine ⟨⟨c, t.takeWhile isNameChar, ?_, hc, fun b hb => List.mem_takeWhile_imp hb⟩, hnone⟩
  rw [String.toList_ofList, List.takeWhile_cons_of_pos (isNameChar_of_isLetter hc)]

/-- A name that stands alone stands for a readable value: a truth value, or no value. -/
theorem readable_of_named? {name : String} (h : named? name = some l) : l.Readable := by
  unfold named? at h
  split at h
  · cases h
    trivial
  split at h
  · cases h
    trivial
  split at h
  · cases h
    trivial
  · cases h

mutual

/-- **A value that is read reads back** (`Readable`), if it is exact. The induction is on the bound,
along the mutual recursion of the readers. -/
theorem readable_of_readValue : ∀ (bound : Nat) (s : List Char) {l : Literal} {rest : List Char},
    readValue bound s = .ok (l, rest) → l.IsExact → l.Readable
  | 0, _, _, _, h, _ => nomatch h
  | bound + 1, s, l, rest, h, hexact => by
    rw [readValue] at h
    split at h
    · cases h
    next c t hskip =>
    split at h
    · obtain ⟨⟨text, _⟩, -, ⟨⟩⟩ := map_eq_ok.1 h
      trivial
    split at h
    · obtain ⟨⟨⟨items, comma⟩, _⟩, hitems, ⟨⟩⟩ := map_eq_ok.1 h
      exact readableItems_of_readItems bound ']' t hitems hexact
    split at h
    · obtain ⟨⟨⟨items, comma⟩, _⟩, hitems, h⟩ := map_eq_ok.1 h
      -- A value in parentheses is read as the only item of a list without a comma.
      have hall := readableItems_of_readItems bound ')' t hitems
      dsimp only at h
      split at h
      · cases h
        exact (hall ⟨hexact, trivial⟩).1
      · cases h
        exact hall hexact
    split at h
    · obtain ⟨⟨entries, _⟩, hentries, ⟨⟩⟩ := map_eq_ok.1 h
      exact readableEntries_of_readEntries bound t hentries hexact
    split at h
    · exact (readNumber_numeric h).readable hexact
    split at h
    · next hc => exact readable_of_readName bound hc h hexact
    · cases h

/-- A name is the one of a literal, or of a call whose arguments read back (`IsExact`). -/
theorem readable_of_readName : ∀ (bound : Nat) {c : Char} {t : List Char} {l : Literal}
    {rest : List Char}, (isLetter c || c == '_') = true → readName bound (c :: t) = .ok (l, rest) →
    l.IsExact → l.Readable
  | 0, _, _, _, _, _, h, _ => nomatch h
  | bound + 1, c, t, l, rest, hc, h, hexact => by
    rw [readName] at h
    dsimp only at h
    split at h
    · next hnamed =>
      cases h
      exact readable_of_named? hnamed
    · next u hnone _ =>
      obtain ⟨⟨arguments, _⟩, harguments, ⟨⟩⟩ := map_eq_ok.1 h
      exact ⟨isCallName_takeWhile hc hnone,
        readableArguments_of_readArguments bound _ u harguments hexact⟩
    · cases h

/-- The items of a list that are read are `Readable`, as each is a value that is read. -/
theorem readableItems_of_readItems : ∀ (bound : Nat) (close : Char) (s : List Char)
    {items : List Literal} {comma : Bool} {rest : List Char},
    readItems bound close s = .ok ((items, comma), rest) → IsExactItems items →
    ReadableItems items
  | 0, _, _, _, _, _, h, _ => nomatch h
  | bound + 1, close, s, items, comma, rest, h, hexact => by
    rw [readItems] at h
    split at h
    · cases h
      trivial
    · obtain ⟨⟨l, afterValue⟩, hvalue, h⟩ := bind_eq_ok.1 h
      obtain ⟨⟨_, afterPart⟩, -, h⟩ := bind_eq_ok.1 h
      obtain ⟨⟨⟨items', _⟩, afterItems⟩, hitems, h⟩ := bind_eq_ok.1 h
      cases h
      exact ⟨readable_of_readValue bound s hvalue hexact.1,
        readableItems_of_readItems bound close afterPart hitems hexact.2⟩

/-- The entries of a dictionary that are read are `Readable`, keys and values. -/
theorem readableEntries_of_readEntries : ∀ (bound : Nat) (s : List Char)
    {entries : List (Literal × Literal)} {rest : List Char},
    readEntries bound s = .ok (entries, rest) → IsExactEntries entries → ReadableEntries entries
  | 0, _, _, _, h, _ => nomatch h
  | bound + 1, s, entries, rest, h, hexact => by
    rw [readEntries] at h
    split at h
    · cases h
      trivial
    · obtain ⟨⟨key, afterKey⟩, hkey, h⟩ := bind_eq_ok.1 h
      obtain ⟨afterColon, -, h⟩ := bind_eq_ok.1 h
      obtain ⟨⟨l, afterValue⟩, hvalue, h⟩ := bind_eq_ok.1 h
      obtain ⟨⟨_, afterPart⟩, -, h⟩ := bind_eq_ok.1 h
      obtain ⟨⟨entries', afterEntries⟩, hentries, h⟩ := bind_eq_ok.1 h
      cases h
      exact ⟨readable_of_readValue bound s hkey hexact.1,
        readable_of_readValue bound afterColon hvalue hexact.2.1,
        readableEntries_of_readEntries bound afterPart hentries hexact.2.2⟩

/-- The arguments of a call that are read are `Readable`, and their names are names
(`IsArgumentName`). -/
theorem readableArguments_of_readArguments : ∀ (bound : Nat) (name : String) (s : List Char)
    {arguments : List (String × Literal)} {rest : List Char},
    readArguments bound name s = .ok (arguments, rest) → IsExactArguments arguments →
    ReadableArguments arguments
  | 0, _, _, _, _, h, _ => nomatch h
  | bound + 1, name, s, arguments, rest, h, hexact => by
    rw [readArguments] at h
    split at h
    · cases h
      trivial
    dsimp only at h
    split at h
    · next b key t hkey _ =>
      obtain ⟨⟨l, afterValue⟩, hvalue, h⟩ := bind_eq_ok.1 h
      obtain ⟨⟨_, afterPart⟩, -, h⟩ := bind_eq_ok.1 h
      obtain ⟨⟨arguments', afterArguments⟩, harguments, h⟩ := bind_eq_ok.1 h
      cases h
      refine ⟨?_, readable_of_readValue bound t hvalue hexact.1,
        readableArguments_of_readArguments bound name afterPart harguments hexact.2⟩
      rw [IsArgumentName, String.toList_ofList, hkey]
      exact ⟨List.cons_ne_nil b key, fun c hc => List.mem_takeWhile_imp (hkey ▸ hc)⟩
    · cases h

end

/-! ## Whole literals -/

/-- A literal that is read from any text is readable, if it is exact (`IsExact`). -/
theorem readable_of_read (h : read s = .ok l) (hexact : l.IsExact) : l.Readable := by
  rw [read] at h
  obtain ⟨⟨l', rest⟩, hvalue, h⟩ := bind_eq_ok.1 h
  dsimp only at h
  split at h
  · cases h
    exact readable_of_readValue _ s hvalue hexact
  · cases h

/-- **A literal that is read reads back**: what is written for it (`Literal.written`) is read as the
same literal. -/
theorem read_written_of_read (h : read s = .ok l) (hexact : l.IsExact) : read l.written = .ok l :=
  read_written (readable_of_read h hexact)

/-- **The literals that read back.** A literal reads back as it is written, and has neither a
floating-point nor a complex number in it, exactly if no integer in it is the least one, the names
of its calls are names that stand for no value, and the names of their arguments are words. -/
theorem readable_iff_reads_back (l : Literal) :
    l.Readable ↔ l.IsExact ∧ read l.display.toList = .ok l := by
  rw [display, String.toList_ofList]
  exact ⟨fun h => ⟨exact_of_readable h, read_written h⟩, fun h => readable_of_read h.2 h.1⟩

end WorkflowTemplates.Literal
