import WorkflowTemplates.Proofs.Outcome
import WorkflowTemplates.Proofs.Source.Scalars

/-!
# Reading literals back

A literal that can be read back is read off the front of a text as it is written
(`readValue_written`), if the text behind it goes on with no value; so the whole text of a literal
is read as the literal (`read_written`). The induction goes over the literal. Each family of parts —
items, entries, arguments — has a step for the end and a step for a part, and the bound is what the
reader asks for: two steps for each character.
-/

namespace WorkflowTemplates.Literal

open Source (isClosing isQuote ScanState)
open Text (isBlank isDigit isLetter isWordChar Stops)

/-! ## Readers skip -/

section
variable {s t : List Char}

/-- A value is read from behind what is skipped, so only that part of the text counts. -/
theorem readValue_congr (h : skip s = skip t) (bound : Nat) :
    readValue bound s = readValue bound t := by
  cases bound with
  | zero => rw [readValue, readValue]
  | succ bound => rw [readValue, readValue, h]

/-- A value is read from behind a blank as without it, whatever comes out (`r`). -/
theorem readValue_blank {bound : Nat} {r : Except ReadFault (Literal × List Char)}
    (h : readValue bound s = r) : readValue bound (' ' :: s) = r :=
  (readValue_congr (show skip (' ' :: s) = skip s from rfl) bound).trans h

/-- Items are read from behind what is skipped (`skip`). -/
theorem readItems_congr (h : skip s = skip t) (bound : Nat) (close : Char) :
    readItems bound close s = readItems bound close t := by
  cases bound with
  | zero => rw [readItems, readItems]
  | succ bound => rw [readItems, readItems, h, readValue_congr h]

/-- Entries are read from behind what is skipped (`skip`). -/
theorem readEntries_congr (h : skip s = skip t) (bound : Nat) :
    readEntries bound s = readEntries bound t := by
  cases bound with
  | zero => rw [readEntries, readEntries]
  | succ bound => rw [readEntries, readEntries, h, readValue_congr h]

/-- Arguments are read from behind what is skipped (`skip`). -/
theorem readArguments_congr (h : skip s = skip t) (bound : Nat) (name : String) :
    readArguments bound name s = readArguments bound name t := by
  cases bound with
  | zero => rw [readArguments, readArguments]
  | succ bound => rw [readArguments, readArguments, h]

end

/-! ## Which value starts -/

section
variable {bound : Nat} {c : Char} {t : List Char}

/-- No string opens at a word character that no quote follows (`ht`): it is no prefix of one. -/
theorem opensString?_word (hc : isWordChar c = true) (ht : Stops isQuote t) :
    opensString? (c :: t) = none := by
  have hquote := ScanState.isQuote_of_isPlain (isPlain_of_isWordChar hc).1
  unfold opensString?
  dsimp only
  rw [if_neg (by rw [hquote]; exact Bool.false_ne_true)]
  split
  · cases t with
    | nil => rfl
    | cons q t =>
      dsimp only
      rw [ht q t rfl, if_neg Bool.false_ne_true]
  · rfl

/-- A letter is no digit, and an underscore is none either. -/
theorem isDigit_of_isLetter (hc : (isLetter c || c == '_') = true) : isDigit c = false := by
  cases hd : isDigit c with
  | false => rfl
  | true =>
    have hne : c ≠ '_' := Text.ne_of_kind hd rfl
    simp only [isDigit, Bool.and_eq_true, decide_eq_true_eq] at hd
    have hu : c.toNat ≤ 0x39 := hd.2
    rw [isLetter, if_pos (by omega), Text.isAsciiLetter, Bool.or_eq_true, Bool.or_eq_true,
      beq_iff_eq] at hc
    simp only [Bool.and_eq_true, decide_eq_true_eq] at hc
    rcases hc with (⟨hl, -⟩ | ⟨hl, -⟩) | hc
    · have hl : 0x41 ≤ c.toNat := hl
      omega
    · have hl : 0x61 ≤ c.toNat := hl
      omega
    · exact absurd hc hne

/-- A letter starts no number: those start with a digit, a sign or a point. -/
theorem startsNumber_letter (hc : (isLetter c || c == '_') = true) :
    startsNumber (c :: t) = false := by
  have hne (d : Char) (hd : isWordChar d = false) : (c == d) = false :=
    beq_eq_false_iff_ne.2 (Text.ne_of_kind (isWordChar_of_isLetter hc) hd)
  unfold startsNumber
  dsimp only
  rw [hne '-' rfl, hne '+' rfl, hne '.' rfl, isDigit_of_isLetter hc]
  rfl

/-- A letter or an underscore starts a name, if it is no prefix of a string (`ht`). -/
theorem readValue_word (hc : (isLetter c || c == '_') = true) (ht : Stops isQuote t) :
    readValue (bound + 1) (c :: t) = readName bound (c :: t) := by
  have hword := isWordChar_of_isLetter hc
  rw [readValue, (startsValue_of_isWordChar hword).skip_eq]
  dsimp only
  rw [opensString?_word hword ht, if_neg (Text.ne_of_kind hword rfl),
    if_neg (Text.ne_of_kind hword rfl), if_neg (Text.ne_of_kind hword rfl),
    startsNumber_letter hc, if_neg Bool.false_ne_true, if_pos hc]
  rfl

/-- A sign or a digit starts a number, and nothing else. -/
theorem readValue_number (hc : c = '-' ∨ c = '+' ∨ isDigit c = true) :
    readValue (bound + 1) (c :: t) = readNumber (c :: t) := by
  have hne (d : Char) (hd : d ≠ '-' ∧ d ≠ '+' ∧ isDigit d = false) : c ≠ d := by
    rcases hc with rfl | rfl | hc
    · exact hd.1.symm
    · exact hd.2.1.symm
    · exact Text.ne_of_kind hc hd.2.2
  have hstart : StartsValue c := by
    rcases hc with rfl | rfl | hc
    · exact ⟨rfl, by decide, by decide, rfl⟩
    · exact ⟨rfl, by decide, by decide, rfl⟩
    · exact startsValue_of_isWordChar (isWordChar_of_isDigit hc)
  have hopens : opensString? (c :: t) = none := by
    refine opensString?_cons ?_ ?_ t
    · simp [isQuote, hne '"' (by decide), hne '\'' (by decide)]
    · simp [isStringPrefix, hne 'r' (by decide), hne 'R' (by decide), hne 'u' (by decide),
        hne 'U' (by decide)]
  have hnumber : startsNumber (c :: t) = true := by
    rcases hc with rfl | rfl | hc
    · rfl
    · rfl
    · unfold startsNumber
      dsimp only
      rw [hc, Bool.or_true, Bool.true_or]
  rw [readValue, hstart.skip_eq]
  dsimp only
  rw [hopens, if_neg (hne _ (by decide)), if_neg (hne _ (by decide)), if_neg (hne _ (by decide)),
    if_pos hnumber]
  rfl

/-- A quote starts a string, which is read up to its end as it is written (`quoted`). -/
theorem readValue_quoted (s : String) {rest : List Char} (h : EndsValue rest) :
    readValue (bound + 2) (quoted s ++ rest) = .ok (string s, rest) := by
  have hstrings := readStrings_quoted s h bound
  rw [quoted, List.append_assoc, List.cons_append] at hstrings ⊢
  rw [readValue, skip_cons (by decide) (by decide) (by decide)]
  dsimp only
  rw [if_pos (show (opensString? _).isSome = true from rfl), hstrings]
  show Except.ok (string (String.ofList s.toList), rest) = _
  rw [String.ofList_toList]

/-- A square bracket starts a list; whether a comma stands behind the last item does not matter. -/
theorem readValue_list :
    readValue (bound + 1) ('[' :: t)
      = (readItems bound ']' t).map fun ((items, _), rest) => (list items, rest) := by
  rw [readValue]
  rfl

/-- A brace starts a dictionary, whose entries go up to the closing brace. -/
theorem readValue_dict :
    readValue (bound + 1) ('{' :: t)
      = (readEntries bound t).map fun (entries, rest) => (dict entries, rest) := by
  rw [readValue]
  rfl

end

/-! ## Parts of containers -/

/-- Parts as they stand behind another one: each behind a comma and a space. -/
def further {α : Type} (write : List α → List Char) : List α → List Char
  | [] => []
  | part :: parts => ',' :: ' ' :: write (part :: parts)

/-- The items of a list, the first one apart from the others (`further`). -/
theorem writtenItems_cons (l : Literal) (items : List Literal) :
    writtenItems (l :: items) = written l ++ further writtenItems items := by
  cases items with
  | nil => rw [writtenItems, further, List.append_nil]
  | cons m items =>
    rw [writtenItems, further]
    exact List.cons_ne_nil m items

/-- The entries of a dictionary, the first one apart from the others (`further`). -/
theorem writtenEntries_cons (k v : Literal) (entries : List (Literal × Literal)) :
    writtenEntries ((k, v) :: entries)
      = written k ++ ':' :: ' ' :: (written v ++ further writtenEntries entries) := by
  cases entries with
  | nil => rw [writtenEntries, further, List.append_nil]
  | cons e entries =>
    rw [writtenEntries, further, List.append_assoc]
    · rfl
    · exact List.cons_ne_nil e entries

/-- The arguments of a call, the first one apart from the others (`further`). -/
theorem writtenArguments_cons (k : String) (v : Literal) (arguments : List (String × Literal)) :
    writtenArguments ((k, v) :: arguments)
      = k.toList ++ '=' :: (written v ++ further writtenArguments arguments) := by
  cases arguments with
  | nil => rw [writtenArguments, further, List.append_nil]
  | cons a arguments =>
    rw [writtenArguments, further, List.append_assoc]
    · rfl
    · exact List.cons_ne_nil a arguments

section
variable {α : Type} {write : List α → List Char} {close : Char}

/-- Commas only make the text of parts longer, so a bound that suffices with them suffices without.
-/
theorem length_le_further (write : List α → List Char) (hnil : write [] = []) (parts : List α) :
    (write parts).length ≤ (further write parts).length := by
  cases parts with
  | nil =>
    rw [hnil]
    exact Nat.zero_le _
  | cons part parts =>
    rw [further, List.length_cons, List.length_cons]
    omega

/-- What closes a container is a delimiter (`isDelimiter`), so a value ends before it. -/
theorem isDelimiter_of_isClosing (h : isClosing close = true) : isDelimiter close = true := by
  rw [isDelimiter, h, Bool.or_true]

/-- What closes a container is not skipped: it is neither a blank nor a comment. -/
theorem skip_close (h : isClosing close = true) (rest : List Char) :
    skip (close :: rest) = close :: rest :=
  (endsValue_cons (isDelimiter_of_isClosing h) rest).skip_eq

/-- A value ends before further parts (`EndsValue`): before a comma, or before what closes the
container. -/
theorem endsValue_further (hclose : isClosing close = true) (parts : List α)
    (rest : List Char) : EndsValue (further write parts ++ close :: rest) := by
  cases parts with
  | nil => exact endsValue_cons (isDelimiter_of_isClosing hclose) rest
  | cons part parts => exact endsValue_cons rfl _

/-- The reader takes the comma behind a part, and what is left starts with the next part, or with
what closes the container. -/
theorem behindPart_further (write : List α → List Char) (hnil : write [] = []) (close : Char)
    (hclose : isClosing close = true) (fault : ReadFault) (parts : List α) (rest : List Char) :
    ∃ comma t, behindPart close fault (further write parts ++ close :: rest) = .ok (comma, t)
      ∧ skip t = skip (write parts ++ close :: rest) := by
  cases parts with
  | nil =>
    refine ⟨false, close :: rest, ?_, by rw [hnil, List.nil_append]⟩
    have hcomma : close ≠ ',' := by
      rintro rfl
      cases hclose
    rw [further, List.nil_append, behindPart, skip_close hclose]
    dsimp only
    rw [if_neg hcomma, if_pos rfl]
  | cons part parts =>
    refine ⟨true, ' ' :: (write (part :: parts) ++ close :: rest), ?_, rfl⟩
    rw [further, List.cons_append, behindPart, skip_cons (by decide) (by decide) (by decide)]
    rfl

end

/-! ## Steps of the reader -/

section
variable {bound : Nat} {close c : Char} {s t u rest : List Char}

/-- A container closes where its bracket stands, with no further items. -/
theorem readItems_close (hclose : isClosing close = true) :
    readItems (bound + 1) close (close :: rest) = .ok (([], false), rest) := by
  rw [readItems, skip_close hclose]
  exact if_pos rfl

/-- An item, and the items behind it: the step of `readItems`, from what is read of the item, of the
text behind it, and of the others. -/
theorem readItems_item (hc : StartsValue c) (hclose : isClosing close = true) {l : Literal}
    {items : List Literal} {comma comma' : Bool}
    (hvalue : readValue bound (c :: s) = .ok (l, t))
    (hpart : behindPart close (.separator close) t = .ok (comma, u))
    (hitems : readItems bound close u = .ok ((items, comma'), rest)) :
    readItems (bound + 1) close (c :: s) = .ok ((l :: items, comma || comma'), rest) := by
  have hopen : ¬(skip (c :: s)).head? = some close := by
    rw [hc.skip_eq, List.head?_cons, Option.some.injEq]
    exact (Text.ne_of_kind hclose hc.closing).symm
  rw [readItems, if_neg hopen]
  refine bind_eq_ok.2 ⟨_, hvalue, ?_⟩
  refine bind_eq_ok.2 ⟨_, hpart, ?_⟩
  exact bind_eq_ok.2 ⟨_, hitems, rfl⟩

/-- A dictionary closes where its brace stands, with no further entries. -/
theorem readEntries_close : readEntries (bound + 1) ('}' :: rest) = .ok ([], rest) := by
  rw [readEntries, skip_close rfl]
  rfl

/-- An entry, and the entries behind it: the step of `readEntries`, with the colon between key and
value. -/
theorem readEntries_entry (hc : StartsValue c) {k v : Literal}
    {entries : List (Literal × Literal)} {comma : Bool} {w : List Char}
    (hkey : readValue bound (c :: s) = .ok (k, ':' :: w))
    (hvalue : readValue bound w = .ok (v, t))
    (hpart : behindPart '}' (.separator '}') t = .ok (comma, u))
    (hentries : readEntries bound u = .ok (entries, rest)) :
    readEntries (bound + 1) (c :: s) = .ok ((k, v) :: entries, rest) := by
  have hopen : ¬(skip (c :: s)).head? = some '}' := by
    rw [hc.skip_eq, List.head?_cons, Option.some.injEq]
    exact (Text.ne_of_kind rfl hc.closing).symm
  have hcolon : expect ':' (':' :: w) = .ok w := by
    rw [expect, skip_cons (by decide) (by decide) (by decide)]
    rfl
  rw [readEntries, if_neg hopen]
  refine bind_eq_ok.2 ⟨_, hkey, ?_⟩
  refine bind_eq_ok.2 ⟨_, hcolon, ?_⟩
  refine bind_eq_ok.2 ⟨_, hvalue, ?_⟩
  refine bind_eq_ok.2 ⟨_, hpart, ?_⟩
  exact bind_eq_ok.2 ⟨_, hentries, rfl⟩

/-- A call closes where its parenthesis stands, with no further arguments. -/
theorem readArguments_close (name : String) :
    readArguments (bound + 1) name (')' :: rest) = .ok ([], rest) := by
  rw [readArguments, skip_close rfl]
  rfl

/-- An argument, and the arguments behind it: the step of `readArguments`, with the equals sign
between name and value. -/
theorem readArguments_argument (name : String) {k : String} (hk : IsArgumentName k) {v : Literal}
    {arguments : List (String × Literal)} {comma : Bool}
    (hvalue : readValue bound s = .ok (v, t))
    (hpart : behindPart ')' (.callSeparator name) t = .ok (comma, u))
    (harguments : readArguments bound name u = .ok (arguments, rest)) :
    readArguments (bound + 1) name (k.toList ++ '=' :: s) = .ok ((k, v) :: arguments, rest) := by
  obtain ⟨hnil, hword⟩ := hk
  obtain ⟨c, w, hcw⟩ := List.exists_cons_of_ne_nil hnil
  have hc : isWordChar c = true := hword c (hcw ▸ List.mem_cons_self)
  have hstart := startsValue_of_isWordChar hc
  have hskip : skip (k.toList ++ '=' :: s) = k.toList ++ '=' :: s := by
    rw [hcw, List.cons_append]
    exact hstart.skip_eq _
  have hopen : ¬(skip (k.toList ++ '=' :: s)).head? = some ')' := by
    rw [hskip, hcw, List.cons_append, List.head?_cons, Option.some.injEq]
    exact (Text.ne_of_kind rfl hstart.closing).symm
  have hstops : Stops isWordChar ('=' :: s) := Text.stops_cons rfl s
  have hequals : skip ('=' :: s) = '=' :: s := skip_cons rfl (by decide) (by decide) s
  rw [readArguments, if_neg hopen, hskip, hstops.takeWhile_run hword, hstops.dropWhile_run hword,
    hequals, hcw]
  refine bind_eq_ok.2 ⟨_, hvalue, ?_⟩
  refine bind_eq_ok.2 ⟨_, hpart, ?_⟩
  refine bind_eq_ok.2 ⟨_, harguments, ?_⟩
  rw [← hcw, String.ofList_toList]

/-- No quote follows the characters of a name if none follows the name, so none of them is taken for
a prefix of a string (`Stops`). -/
theorem stops_isQuote_append (h : Stops isQuote rest) (hs : ∀ b ∈ s, isNameChar b = true) :
    Stops isQuote (s ++ rest) := by
  refine h.append ?_
  intro b hb
  exact ScanState.isQuote_of_isPlain (isPlain_of_isNameChar (hs b hb)).1

/-- A letter or an underscore may stand in a name (`isNameChar`), also at its start. -/
theorem isNameChar_of_isLetter (hc : (isLetter c || c == '_') = true) : isNameChar c = true := by
  rw [isNameChar, isWordChar_of_isLetter hc, Bool.true_or]

/-- A name that stands for a value (`named?`) is read as the value, if no part of a name follows it.
-/
theorem readValue_named (name : String) {l : Literal} (hc : (isLetter c || c == '_') = true)
    (hs : ∀ b ∈ s, isNameChar b = true) (hname : name.toList = c :: s)
    (hl : named? name = some l) (h : EndsValue rest) :
    readValue (bound + 2) (name.toList ++ rest) = .ok (l, rest) := by
  have hend : Stops isQuote rest := h.stops (Text.forall_mem_of_all (by decide))
  have hquotes := stops_isQuote_append hend hs
  have hchars : ∀ b ∈ name.toList, isNameChar b = true := by
    rw [hname]
    exact List.forall_mem_cons.2 ⟨isNameChar_of_isLetter hc, hs⟩
  have hread := readName_named hchars hl h bound
  rw [hname, List.cons_append] at hread ⊢
  rw [readValue_word hc hquotes, hread]

/-- A name in front of a parenthesis is read as a call, with the arguments that are read behind it
(`h`). -/
theorem readValue_call {name : String} (hname : IsCallName name)
    {arguments : List (String × Literal)}
    (h : readArguments bound name t = .ok (arguments, rest)) :
    readValue (bound + 2) (name.toList ++ '(' :: t) = .ok (call name arguments, rest) := by
  obtain ⟨⟨c, s, hcs, hc, hs⟩, hnone⟩ := hname
  have hend : Stops isQuote ('(' :: t) := Text.stops_cons rfl t
  have hquotes := stops_isQuote_append hend hs
  have hchars : ∀ b ∈ name.toList, isNameChar b = true := by
    rw [hcs]
    exact List.forall_mem_cons.2 ⟨isNameChar_of_isLetter hc, hs⟩
  have hstops : Stops isNameChar ('(' :: t) := Text.stops_cons rfl t
  have hread : readName (bound + 1) (name.toList ++ '(' :: t)
      = .ok (call name arguments, rest) := by
    rw [readName, hstops.takeWhile_run hchars, hstops.dropWhile_run hchars, String.ofList_toList,
      hnone, skip_cons (by decide) (by decide) (by decide)]
    show (readArguments bound name t).map _ = _
    rw [h]
    rfl
  rw [hcs, List.cons_append] at hread ⊢
  rw [readValue_word hc hquotes, hread]

end

/-! ## The induction -/

/-- What is written for a literal has a length, so a bound that suffices for it is positive. -/
theorem one_le_length_written {l : Literal} (h : l.Readable) : 1 ≤ l.written.length :=
  List.length_pos_iff.2 (written_ne_nil h)

mutual

/-- A written literal is read off the front of a text, if the text behind it goes on with no value
(`EndsValue`) and the bound is twice its length. The induction is over the literal, together with
its items, entries and arguments. -/
theorem readValue_written : ∀ (l : Literal), l.Readable → ∀ (bound : Nat) (rest : List Char),
    2 * l.written.length ≤ bound → EndsValue rest →
    readValue bound (l.written ++ rest) = .ok (l, rest)
  | string s, _, bound + 2, rest, _, h => readValue_quoted s h
  | integer i, hi, bound + 2, rest, _, h => by
    obtain ⟨c, t, hc, hstart⟩ := integer_start i.toInt
    have hread := readNumber_integer hi h
    rw [hc, List.cons_append] at hread
    rw [written, hc, List.cons_append, readValue_number (hstart.imp_right .inr), hread]
  | boolean true, _, bound + 2, rest, _, h =>
    readValue_named "True" (by decide) (Text.forall_mem_of_all (by decide)) rfl rfl h
  | boolean false, _, bound + 2, rest, _, h =>
    readValue_named "False" (by decide) (Text.forall_mem_of_all (by decide)) rfl rfl h
  | nothing, _, bound + 2, rest, _, h =>
    readValue_named "None" (by decide) (Text.forall_mem_of_all (by decide)) rfl rfl h
  | list items, hl, bound + 2, rest, hbound, _ => by
    rw [written, List.cons_append, List.length_cons, List.length_append,
      List.length_singleton] at hbound
    obtain ⟨comma, hitems⟩ := readItems_written items hl (bound + 1) rest (by omega)
    rw [written, List.cons_append, List.cons_append, List.append_assoc, List.singleton_append,
      readValue_list, hitems]
    rfl
  | dict entries, hl, bound + 2, rest, hbound, _ => by
    rw [written, List.cons_append, List.length_cons, List.length_append,
      List.length_singleton] at hbound
    have hentries := readEntries_written entries hl (bound + 1) rest (by omega)
    rw [written, List.cons_append, List.cons_append, List.append_assoc, List.singleton_append,
      readValue_dict, hentries]
    rfl
  | call name arguments, hl, bound + 2, rest, hbound, _ => by
    rw [written, List.length_append, List.length_append, List.length_cons,
      List.length_singleton] at hbound
    have harguments := readArguments_written name arguments hl.2 bound rest (by omega)
    rw [written, List.append_assoc, List.append_assoc, List.cons_append, List.singleton_append]
    exact readValue_call hl.1 harguments
  | l, hl, 0, _, hbound, _ | l, hl, 1, _, hbound, _ => by
    have := one_le_length_written hl
    omega

/-- The items of a list are read up to its bracket, one by one (`ReadableItems`). -/
theorem readItems_written : ∀ (items : List Literal), ReadableItems items →
    ∀ (bound : Nat) (rest : List Char), 2 * (writtenItems items).length + 1 ≤ bound →
    ∃ comma, readItems bound ']' (writtenItems items ++ ']' :: rest) = .ok ((items, comma), rest)
  | [], _, bound + 1, rest, _ => ⟨false, readItems_close rfl⟩
  | l :: items, h, bound + 1, rest, hbound => by
    have hlength := length_le_further writtenItems rfl items
    have hone := one_le_length_written h.1
    rw [writtenItems_cons, List.length_append] at hbound
    obtain ⟨comma, t, hpart, hskip⟩ :=
      behindPart_further writtenItems rfl ']' rfl (.separator ']') items rest
    obtain ⟨comma', hitems⟩ := readItems_written items h.2 bound rest (by omega)
    have hvalue := readValue_written l h.1 bound (further writtenItems items ++ ']' :: rest)
      (by omega) (endsValue_further rfl items rest)
    rw [← readItems_congr hskip] at hitems
    obtain ⟨c, w, hw, hc⟩ := written_start h.1
    rw [writtenItems_cons, List.append_assoc]
    rw [hw, List.cons_append] at hvalue ⊢
    exact ⟨_, readItems_item hc rfl hvalue hpart hitems⟩
  | _, _, 0, _, hbound => by omega

/-- The entries of a dictionary are read up to its brace, one by one (`ReadableEntries`). -/
theorem readEntries_written : ∀ (entries : List (Literal × Literal)), ReadableEntries entries →
    ∀ (bound : Nat) (rest : List Char), 2 * (writtenEntries entries).length + 1 ≤ bound →
    readEntries bound (writtenEntries entries ++ '}' :: rest) = .ok (entries, rest)
  | [], _, bound + 1, rest, _ => readEntries_close
  | (k, v) :: entries, h, bound + 1, rest, hbound => by
    have hlength := length_le_further writtenEntries rfl entries
    have hone := one_le_length_written h.1
    rw [writtenEntries_cons, List.length_append, List.length_cons, List.length_cons,
      List.length_append] at hbound
    obtain ⟨comma, t, hpart, hskip⟩ :=
      behindPart_further writtenEntries rfl '}' rfl (.separator '}') entries rest
    have hentries := readEntries_written entries h.2.2 bound rest (by omega)
    have hvalue := readValue_written v h.2.1 bound (further writtenEntries entries ++ '}' :: rest)
      (by omega) (endsValue_further rfl entries rest)
    have hkey := readValue_written k h.1 bound
      (':' :: ' ' :: (written v ++ (further writtenEntries entries ++ '}' :: rest))) (by omega)
      (endsValue_cons rfl _)
    rw [← readEntries_congr hskip] at hentries
    obtain ⟨c, w, hw, hc⟩ := written_start h.1
    rw [writtenEntries_cons, List.append_assoc, List.cons_append, List.cons_append,
      List.append_assoc]
    rw [hw, List.cons_append] at hkey ⊢
    exact readEntries_entry hc hkey (readValue_blank hvalue) hpart hentries
  | _, _, 0, _, hbound => by omega

/-- The arguments of a call are read up to its parenthesis, one by one (`ReadableArguments`). -/
theorem readArguments_written (name : String) : ∀ (arguments : List (String × Literal)),
    ReadableArguments arguments → ∀ (bound : Nat) (rest : List Char),
    2 * (writtenArguments arguments).length + 1 ≤ bound →
    readArguments bound name (writtenArguments arguments ++ ')' :: rest) = .ok (arguments, rest)
  | [], _, bound + 1, rest, _ => readArguments_close name
  | (k, v) :: arguments, h, bound + 1, rest, hbound => by
    have hlength := length_le_further writtenArguments rfl arguments
    have hone := one_le_length_written h.2.1
    rw [writtenArguments_cons, List.length_append, List.length_cons, List.length_append] at hbound
    obtain ⟨comma, t, hpart, hskip⟩ :=
      behindPart_further writtenArguments rfl ')' rfl (.callSeparator name) arguments rest
    have harguments := readArguments_written name arguments h.2.2 bound rest (by omega)
    have hvalue := readValue_written v h.2.1 bound
      (further writtenArguments arguments ++ ')' :: rest) (by omega)
      (endsValue_further rfl arguments rest)
    rw [← readArguments_congr hskip] at harguments
    rw [writtenArguments_cons, List.append_assoc, List.cons_append, List.append_assoc]
    exact readArguments_argument name h.1 hvalue hpart harguments
  | _, _, 0, _, hbound => by omega

end

/-- **A written literal reads back**: the whole text of a literal (`Literal.written`) is read as the
literal. -/
theorem read_written {l : Literal} (h : l.Readable) : read l.written = .ok l := by
  have hvalue := readValue_written l h (2 * l.written.length + 2) [] (by omega) endsValue_nil
  rw [List.append_nil] at hvalue
  rw [read]
  exact bind_eq_ok.2 ⟨_, hvalue, rfl⟩

end WorkflowTemplates.Literal
