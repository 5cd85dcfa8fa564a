import WorkflowTemplates.Proofs.Decimal.Digits
import WorkflowTemplates.Proofs.Source.Scan
import WorkflowTemplates.Proofs.Text.Trim
import WorkflowTemplates.Source.LiteralReader

/-!
# Written literals

The literals that read back as they are written (`Readable`) have neither floating-point nor complex
numbers, and the names of their calls and arguments are names. What is written for them starts with
a character that only starts values (`written_start`), and the scanner passes over it as over one
token: all brackets that it opens are closed, and what could end it stands inside brackets or
strings (`scans_written`).
-/

namespace WorkflowTemplates.Literal

open Source (isClosing isQuote ScanState)
open Source.ScanState (Visits Scans scans_nil scans_plain isPlain)
open Text (isBlank isDigit isLetter isWordChar)

/-! ## Literals that read back -/

/-- The name of a call: a letter or an underscore, then word characters and dots; and none of the
names that stand for values (`named?`). -/
def IsCallName (name : String) : Prop :=
  (∃ c s, name.toList = c :: s ∧ (isLetter c || c == '_') = true ∧ ∀ c ∈ s, isNameChar c = true)
    ∧ named? name = none

/-- The name of an argument: word characters, at least one. -/
def IsArgumentName (name : String) : Prop :=
  name.toList ≠ [] ∧ ∀ c ∈ name.toList, isWordChar c = true

mutual

/-- A literal reads back as it is written. The least integer does not, since the digits of an
integer are read before its sign; floating-point and complex numbers are left out. Nothing is asked
of strings. -/
def Readable : Literal → Prop
  | string _ | boolean _ | nothing => True
  | integer i => i ≠ Int64.minValue
  | float _ | complex _ => False
  | list items => ReadableItems items
  | dict entries => ReadableEntries entries
  | call name arguments => IsCallName name ∧ ReadableArguments arguments

/-- `Readable` of every item of a list, by recursion over the list. -/
def ReadableItems : List Literal → Prop
  | [] => True
  | l :: rest => Readable l ∧ ReadableItems rest

/-- `Readable` of every key and every value of a dictionary, by recursion over the entries. -/
def ReadableEntries : List (Literal × Literal) → Prop
  | [] => True
  | (k, v) :: rest => Readable k ∧ Readable v ∧ ReadableEntries rest

/-- `Readable` of every argument of a call, and of its name (`IsArgumentName`). -/
def ReadableArguments : List (String × Literal) → Prop
  | [] => True
  | (k, v) :: rest => IsArgumentName k ∧ Readable v ∧ ReadableArguments rest

end

/-! ## How a written literal starts -/

/-- A character that may start a value: it is not skipped between tokens, and closes nothing. -/
structure StartsValue (c : Char) : Prop where
  isBlank : isBlank c = false
  backslash : c ≠ '\\'
  comment : c ≠ '#'
  closing : isClosing c = false

/-- Word characters close nothing: the closing brackets are no word characters. -/
theorem isClosing_of_isWordChar {c : Char} (h : isWordChar c = true) : isClosing c = false := by
  simp only [isClosing, Bool.or_eq_false_iff, beq_eq_false_iff_ne]
  exact ⟨⟨Text.ne_of_kind h rfl, Text.ne_of_kind h rfl⟩,
    Text.ne_of_kind h rfl⟩

/-- Word characters may start values (`StartsValue`), as names and numbers do. -/
theorem startsValue_of_isWordChar {c : Char} (h : isWordChar c = true) : StartsValue c where
  isBlank := Text.isBlank_of_isWordChar h
  backslash := Text.ne_of_kind h rfl
  comment := Text.ne_of_kind h rfl
  closing := isClosing_of_isWordChar h

/-- Digits are word characters, decimal ones at least. -/
theorem isWordChar_of_isDigit {c : Char} (h : isDigit c = true) : isWordChar c = true := by
  have hascii : c.toNat < 0x80 := by
    simp only [isDigit, Bool.and_eq_true, decide_eq_true_eq] at h
    have hu : c.toNat ≤ 0x39 := h.2
    omega
  rw [isWordChar, Text.isNumber, if_pos hascii, h, Bool.or_true, Bool.true_or]

/-- Letters and underscores are word characters, as at the start of a name. -/
theorem isWordChar_of_isLetter {c : Char} (h : (isLetter c || c == '_') = true) :
    isWordChar c = true := by
  simp only [isWordChar, Bool.or_eq_true] at h ⊢
  rcases h with h | h
  · exact .inl (.inl h)
  · exact .inr h

/-- What is written for an integer starts with a minus sign or a digit, so it is read as a number.
-/
theorem integer_start (i : Int) :
    ∃ c t, Decimal.integer i = c :: t ∧ (c = '-' ∨ isDigit c = true) := by
  rw [Decimal.integer]
  split
  · exact ⟨'-', _, rfl, .inl rfl⟩
  · obtain ⟨c, t, hc⟩ := List.exists_cons_of_ne_nil (Decimal.natural_ne_nil i.natAbs)
    exact ⟨c, t, hc, .inr (Decimal.isDigit_of_mem_natural (hc ▸ List.mem_cons_self))⟩

/-- An integer is written in digits, behind at most a minus sign, which is at its start. -/
theorem mem_integer {i : Int} {c : Char} (h : c ∈ Decimal.integer i) :
    c = '-' ∨ isDigit c = true := by
  rw [Decimal.integer] at h
  split at h
  · rcases List.mem_cons.1 h with h | h
    · exact .inl h
    · exact .inr (Decimal.isDigit_of_mem_natural h)
  · exact .inr (Decimal.isDigit_of_mem_natural h)

/-- A written literal starts with a character that may start a value (`StartsValue`): a quote, a
bracket, a sign, a digit or a letter. -/
theorem written_start {l : Literal} (h : l.Readable) :
    ∃ c t, l.written = c :: t ∧ StartsValue c := by
  cases l with
  | string s => exact ⟨'\'', _, rfl, rfl, by decide, by decide, rfl⟩
  | integer i =>
    obtain ⟨c, t, ht, rfl | hc⟩ := integer_start i.toInt
    · exact ⟨'-', t, ht, rfl, by decide, by decide, rfl⟩
    · exact ⟨c, t, ht, startsValue_of_isWordChar (isWordChar_of_isDigit hc)⟩
  | boolean b =>
    cases b
    · exact ⟨'F', _, rfl, startsValue_of_isWordChar rfl⟩
    · exact ⟨'T', _, rfl, startsValue_of_isWordChar rfl⟩
  | nothing => exact ⟨'N', _, rfl, startsValue_of_isWordChar rfl⟩
  | list items => exact ⟨'[', _, rfl, rfl, by decide, by decide, rfl⟩
  | dict entries => exact ⟨'{', _, rfl, rfl, by decide, by decide, rfl⟩
  | call name arguments =>
    obtain ⟨⟨⟨c, s, hname, hc, -⟩, -⟩, -⟩ := h
    refine ⟨c, s ++ '(' :: writtenArguments arguments ++ [')'], ?_,
      startsValue_of_isWordChar (isWordChar_of_isLetter hc)⟩
    rw [written, hname]
    rfl
  | float x => cases h
  | complex z => cases h

/-- What is written for a literal has a character, whatever the literal is. -/
theorem written_ne_nil {l : Literal} (h : l.Readable) : l.written ≠ [] := by
  obtain ⟨c, t, ht, -⟩ := written_start h
  rw [ht]
  exact List.cons_ne_nil c t

/-- A written literal neither starts nor ends with a blank (`Trimmed`), so reading it drops nothing.
-/
theorem written_trimmed {l : Literal} (h : l.Readable) : Text.Trimmed l.written := by
  cases l with
  | string s => exact Text.trimmed_between rfl rfl _
  | integer i =>
    refine Text.trimmed_of_forall ?_
    intro c hc
    rcases mem_integer hc with rfl | hc
    · rfl
    · exact Text.isBlank_of_isWordChar (isWordChar_of_isDigit hc)
  | boolean b => cases b <;> exact Text.trimmed_of_forall (Text.forall_mem_of_all (by decide))
  | nothing => exact Text.trimmed_of_forall (Text.forall_mem_of_all (by decide))
  | list items => exact Text.trimmed_between rfl rfl _
  | dict entries => exact Text.trimmed_between rfl rfl _
  | call name arguments =>
    obtain ⟨⟨⟨c, s, hname, hc, -⟩, -⟩, -⟩ := h
    rw [written, hname, List.cons_append]
    exact Text.trimmed_between (Text.isBlank_of_isWordChar (isWordChar_of_isLetter hc))
      rfl _
  | float x => cases h
  | complex z => cases h

/-! ## Scanning written literals -/

/-- A character that ends a value or stands between its parts: separators, colons, bars, equals
signs and closing brackets. -/
def isDelimiter (c : Char) : Bool :=
  c == ',' || c == ':' || c == '|' || c == '=' || isClosing c

/-- What a scan meets in a value that starts where `depth` brackets are open: no fewer are ever
open, and where no more are, no delimiter stands. -/
def ValueAt (depth d : Nat) (c : Char) : Prop :=
  depth ≤ d ∧ (d = depth → isDelimiter c = false)

/-- Word characters are plain and no delimiters, so words scan as values. -/
theorem isPlain_of_isWordChar {c : Char} (h : isWordChar c = true) :
    isPlain c = true ∧ isDelimiter c = false := by
  have hne : ∀ d ∈ ['#', '"', '\'', '(', '[', '{', ')', ']', '}', ',', ':', '|', '='],
      isWordChar d = false := Text.forall_mem_of_all (by decide)
  have hc : ∀ d ∈ ['#', '"', '\'', '(', '[', '{', ')', ']', '}', ',', ':', '|', '='],
      (c == d) = false := fun d hd => beq_eq_false_iff_ne.2 (Text.ne_of_kind h (hne d hd))
  simp only [List.forall_mem_cons] at hc
  simp [isPlain, isDelimiter, isQuote, Source.isOpening, isClosing, bne, hc]

/-- Characters of names are plain and no delimiters, so dotted names scan as values. -/
theorem isPlain_of_isNameChar {c : Char} (h : isNameChar c = true) :
    isPlain c = true ∧ isDelimiter c = false := by
  rw [isNameChar, Bool.or_eq_true, beq_iff_eq] at h
  rcases h with h | rfl
  · exact isPlain_of_isWordChar h
  · exact ⟨rfl, rfl⟩

section
variable {p : Nat → Char → Prop} {d : Nat}

/-- Plain characters that are no delimiters scan as a value, at whatever depth `d`. -/
theorem scans_word {w : List Char}
    (h : ∀ c ∈ w, isPlain c = true ∧ isDelimiter c = false) : Scans (ValueAt d) d w :=
  scans_plain fun c hc => ⟨(h c hc).1, Nat.le_refl d, fun _ => (h c hc).2⟩

/-- A character as it is written between quotes is inside the string, whether or not it is the first
one there. -/
theorem scan_escapeChar (c : Char) {m : Source.Mode}
    (hm : m = .opening '\'' ∨ m = .short '\'') :
    ScanState.run ⟨d, m⟩ (escapeChar c) = ⟨d, .short '\''⟩
      ∧ Visits p ⟨d, m⟩ (escapeChar c) := by
  unfold escapeChar
  split
  · rcases hm with rfl | rfl <;> exact ⟨rfl, nofun, nofun, trivial⟩
  split
  · rcases hm with rfl | rfl <;> exact ⟨rfl, nofun, nofun, trivial⟩
  split
  · rcases hm with rfl | rfl <;> exact ⟨rfl, nofun, nofun, trivial⟩
  split
  · rcases hm with rfl | rfl <;> exact ⟨rfl, nofun, nofun, trivial⟩
  · next hbackslash hquote hbreak _ =>
    have hnone : (c == '\n') ≠ true := fun h => hbreak (beq_iff_eq.1 h)
    rcases hm with rfl | rfl
    · refine ⟨?_, fun h => absurd h hnone, trivial⟩
      simp [ScanState.next, ScanState.nextInShort, hbackslash, hquote, hbreak]
    · refine ⟨?_, fun h => absurd h hnone, trivial⟩
      simp [ScanState.next, ScanState.nextInShort, hbackslash, hquote, hbreak]

/-- The characters between quotes are inside the string, by induction over them (`Visits`). -/
theorem scan_content (cs : List Char) :
    ScanState.run ⟨d, .short '\''⟩ (cs.flatMap escapeChar) = ⟨d, .short '\''⟩
      ∧ Visits p ⟨d, .short '\''⟩ (cs.flatMap escapeChar) := by
  induction cs with
  | nil => exact ⟨rfl, trivial⟩
  | cons c cs ih =>
    obtain ⟨hrun, hvisits⟩ := scan_escapeChar (p := p) (d := d) c (.inr rfl)
    rw [List.flatMap_cons, ScanState.run_append, hrun, ScanState.visits_append, hrun]
    exact ⟨ih.1, hvisits, ih.2⟩

/-- In a written string a scan meets no code, so any `p` holds of what it meets. -/
theorem scans_quoted (s : String) : Scans p d (quoted s) := by
  rw [quoted]
  cases s.toList with
  | nil => exact ⟨⟨nofun, nofun, trivial⟩, rfl, .inr ⟨'\'', rfl, rfl⟩⟩
  | cons c cs =>
    obtain ⟨hfirst, hfirst'⟩ := scan_escapeChar (p := p) (d := d) c (.inl rfl)
    obtain ⟨hrest, hrest'⟩ := scan_content (p := p) (d := d) cs
    have hopen : ScanState.next ⟨d, .code⟩ '\'' = ⟨d, .opening '\''⟩ := rfl
    rw [List.flatMap_cons, List.cons_append]
    refine ⟨⟨nofun, ?_⟩, ?_⟩
    · rw [hopen, ScanState.visits_append, ScanState.visits_append, ScanState.run_append, hfirst,
        hrest]
      exact ⟨⟨hfirst', hrest'⟩, nofun, trivial⟩
    · rw [ScanState.run_cons, hopen, ScanState.run_append, ScanState.run_append, hfirst, hrest]
      exact ScanState.rests_code d

/-- What scans as a value (`ValueAt`) scans inside the brackets around it, where delimiters may
stand. -/
theorem scans_inside {w : List Char} (h : Scans (ValueAt d) d w) :
    Scans (fun e _ => d ≤ e) d w :=
  h.mono fun _ _ he => he.1

/-- What scans inside brackets scans as part of the value outside, if the bracket in front of it is
no delimiter. -/
theorem scans_enclosed {w : List Char} {left right : Char}
    (h : Scans (fun e _ => d + 1 ≤ e) (d + 1) w) (hl : Source.isOpening left = true)
    (hr : isClosing right = true) (hd : isDelimiter left = false) :
    Scans (ValueAt d) d (left :: w ++ [right]) := by
  have hinside : Scans (ValueAt d) (d + 1) w := h.mono fun e _ he => ⟨by omega, fun _ => by omega⟩
  exact hinside.enclosed hl hr ⟨Nat.le_refl d, fun _ => hd⟩ ⟨Nat.le_succ d, fun _ => by omega⟩

/-- A key and a value scan inside the braces of their dictionary, with the colon between them. -/
theorem scans_entry {k v : List Char} (hk : Scans (ValueAt d) d k) (hv : Scans (ValueAt d) d v) :
    Scans (fun e _ => d ≤ e) d (k ++ ':' :: ' ' :: v) :=
  (scans_inside hk).append_cons rfl (Nat.le_refl d) ((scans_inside hv).cons rfl (Nat.le_refl d))

/-- A part and the parts behind it scan inside the brackets around them, with the comma between them
(`Scans`). -/
theorem scans_parts {part rest : List Char} (h : Scans (fun e _ => d ≤ e) d part)
    (hrest : Scans (fun e _ => d ≤ e) d rest) :
    Scans (fun e _ => d ≤ e) d (part ++ ',' :: ' ' :: rest) :=
  h.append_cons rfl (Nat.le_refl d) (hrest.cons rfl (Nat.le_refl d))

/-- An argument scans inside the parentheses of its call, with the equals sign behind its name. -/
theorem scans_argument {k : String} {v : List Char} (hk : IsArgumentName k)
    (hv : Scans (ValueAt d) d v) : Scans (fun e _ => d ≤ e) d (k.toList ++ '=' :: v) := by
  have hkey : Scans (fun e _ => d ≤ e) d k.toList :=
    scans_plain fun c hc => ⟨(isPlain_of_isWordChar (hk.2 c hc)).1, Nat.le_refl d⟩
  exact hkey.append_cons rfl (Nat.le_refl d) (scans_inside hv)

end

mutual

/-- **A written literal scans as one token** (`ValueAt`), wherever it stands in code. The induction
is over the literal, together with the items, entries and arguments in it. -/
theorem scans_written : ∀ (l : Literal), l.Readable → ∀ d, Scans (ValueAt d) d l.written
  | string s, _, _ => scans_quoted s
  | integer i, _, d => by
    refine scans_word ?_
    intro c hc
    rcases mem_integer hc with rfl | hc
    · exact ⟨rfl, rfl⟩
    · exact isPlain_of_isWordChar (isWordChar_of_isDigit hc)
  | boolean true, _, _ | boolean false, _, _ | nothing, _, _ =>
    scans_word (Text.forall_mem_of_all (by decide))
  | list items, h, d => scans_enclosed (scans_writtenItems items h (d + 1)) rfl rfl rfl
  | dict entries, h, d => scans_enclosed (scans_writtenEntries entries h (d + 1)) rfl rfl rfl
  | call name arguments, h, d => by
    have hcall : Scans (ValueAt d) d ('(' :: writtenArguments arguments ++ [')']) :=
      scans_enclosed (scans_writtenArguments arguments h.2 (d + 1)) rfl rfl rfl
    obtain ⟨⟨⟨c, s, hname, hc, hs⟩, -⟩, -⟩ := h
    rw [written, List.append_assoc, hname]
    refine .plain_append (fun b hb => ?_) hcall
    have hb' : isPlain b = true ∧ isDelimiter b = false := by
      rcases List.mem_cons.1 hb with rfl | hb
      · exact isPlain_of_isWordChar (isWordChar_of_isLetter hc)
      · exact isPlain_of_isNameChar (hs b hb)
    exact ⟨hb'.1, Nat.le_refl d, fun _ => hb'.2⟩
  | float _, h, _ | complex _, h, _ => nomatch h

/-- The items of a list stand inside its brackets, at the depth `d` and deeper. -/
theorem scans_writtenItems : ∀ (items : List Literal), ReadableItems items → ∀ d,
    Scans (fun e _ => d ≤ e) d (writtenItems items)
  | [], _, _ => scans_nil
  | [l], h, d => scans_inside (scans_written l h.1 d)
  | l :: m :: rest, h, d =>
    scans_parts (scans_inside (scans_written l h.1 d)) (scans_writtenItems (m :: rest) h.2 d)

/-- The entries of a dictionary stand inside its braces, at the depth `d` and deeper. -/
theorem scans_writtenEntries : ∀ (entries : List (Literal × Literal)), ReadableEntries entries →
    ∀ d, Scans (fun e _ => d ≤ e) d (writtenEntries entries)
  | [], _, _ => scans_nil
  | [(k, v)], h, d => scans_entry (scans_written k h.1 d) (scans_written v h.2.1 d)
  | (k, v) :: e :: rest, h, d =>
    scans_parts (scans_entry (scans_written k h.1 d) (scans_written v h.2.1 d))
      (scans_writtenEntries (e :: rest) h.2.2 d)

/-- The arguments of a call stand inside its parentheses, at the depth `d` and deeper. -/
theorem scans_writtenArguments : ∀ (arguments : List (String × Literal)),
    ReadableArguments arguments → ∀ d, Scans (fun e _ => d ≤ e) d (writtenArguments arguments)
  | [], _, _ => scans_nil
  | [(_, v)], h, d => scans_argument h.1 (scans_written v h.2.1 d)
  | (_, v) :: a :: rest, h, d =>
    scans_parts (scans_argument h.1 (scans_written v h.2.1 d))
      (scans_writtenArguments (a :: rest) h.2.2 d)

end

/-! ## Lines -/

/-- No character of a name ends a line, as none is blank. -/
theorem ne_newline_of_isNameChar {c : Char} (h : isNameChar c = true) : c ≠ '\n' :=
  Text.ne_of_kind h rfl

/-- No line ends in a written string: a line feed is written as an escape. -/
theorem newline_notMem_quoted (s : String) : '\n' ∉ quoted s := by
  have hchar (c : Char) : '\n' ∉ escapeChar c := by
    unfold escapeChar
    split
    · decide
    split
    · decide
    split
    · decide
    split
    · decide
    · next hbreak _ => exact fun h => hbreak (List.mem_singleton.1 h).symm
  simp only [quoted, List.mem_append, List.mem_cons, List.mem_flatMap, List.not_mem_nil, or_false]
  rintro ((h | ⟨c, -, hc⟩) | h)
  · exact absurd h (by decide)
  · exact hchar c hc
  · exact absurd h (by decide)

mutual

/-- No line ends in a written literal, by induction over it: between its parts there are only
spaces. -/
theorem newline_notMem_written : ∀ (l : Literal), l.Readable → '\n' ∉ l.written
  | string s, _ => newline_notMem_quoted s
  | integer i, _ => by
    intro h
    rcases mem_integer h with h | h
    · exact absurd h (by decide)
    · exact absurd h (by decide)
  | boolean true, _ | boolean false, _ | nothing, _ => by decide
  | list items, h => by
    have hitems := newline_notMem_writtenItems items h
    simp [written, hitems]
  | dict entries, h => by
    have hentries := newline_notMem_writtenEntries entries h
    simp [written, hentries]
  | call name arguments, h => by
    have harguments := newline_notMem_writtenArguments arguments h.2
    have hname : '\n' ∉ name.toList := by
      obtain ⟨⟨⟨c, s, hcs, hc, hs⟩, -⟩, -⟩ := h
      rw [hcs, List.mem_cons]
      rintro (rfl | h)
      · exact absurd hc (by decide)
      · exact ne_newline_of_isNameChar (hs _ h) rfl
    simp [written, hname, harguments]
  | float _, h | complex _, h => nomatch h

/-- No line ends in the items of a list, as none ends in an item. -/
theorem newline_notMem_writtenItems : ∀ (items : List Literal), ReadableItems items →
    '\n' ∉ writtenItems items
  | [], _ => List.not_mem_nil
  | [l], h => newline_notMem_written l h.1
  | l :: m :: rest, h => by
    have hl := newline_notMem_written l h.1
    have hrest := newline_notMem_writtenItems (m :: rest) h.2
    simp [writtenItems, hl, hrest]

/-- No line ends in the entries of a dictionary, as none ends in a key or a value. -/
theorem newline_notMem_writtenEntries : ∀ (entries : List (Literal × Literal)),
    ReadableEntries entries → '\n' ∉ writtenEntries entries
  | [], _ => List.not_mem_nil
  | [(k, v)], h => by
    have hk := newline_notMem_written k h.1
    have hv := newline_notMem_written v h.2.1
    simp [writtenEntries, hk, hv]
  | (k, v) :: e :: rest, h => by
    have hk := newline_notMem_written k h.1
    have hv := newline_notMem_written v h.2.1
    have hrest := newline_notMem_writtenEntries (e :: rest) h.2.2
    simp [writtenEntries, hk, hv, hrest]

/-- No line ends in the arguments of a call, as none ends in a name or a value. -/
theorem newline_notMem_writtenArguments : ∀ (arguments : List (String × Literal)),
    ReadableArguments arguments → '\n' ∉ writtenArguments arguments
  | [], _ => List.not_mem_nil
  | [(k, v)], h => by
    have hk := Text.newline_notMem_word h.1.2
    have hv := newline_notMem_written v h.2.1
    simp [writtenArguments, hk, hv]
  | (k, v) :: a :: rest, h => by
    have hk := Text.newline_notMem_word h.1.2
    have hv := newline_notMem_written v h.2.1
    have hrest := newline_notMem_writtenArguments (a :: rest) h.2.2
    simp [writtenArguments, hk, hv, hrest]

end

end WorkflowTemplates.Literal
