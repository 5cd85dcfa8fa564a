import WorkflowTemplates.Proofs.Source.ReadBack
import WorkflowTemplates.Source.TypeHint

/-!
# Written type hints

A dotted name stands for the type of its name (`read_name`), and `Literal[...]` over written strings
for the closed set of the strings (`read_choices`). Neither wraps another hint.
-/

namespace WorkflowTemplates.TypeHint

open Literal (ValueAt isDelimiter isNameChar)
open Source.ScanState (Scans isPlain)
open Text (Trimmed isBlank isWordChar trim trimEnd)

/-- A type hint as it is written: a dotted name, or a closed set of texts in the brackets of
`Literal`. -/
inductive Written
  | name (s : List Char)
  | choices (values : List String)

/-- The literal for a list of texts, whose items are written between the brackets of `Literal`. -/
def textList (values : List String) : Literal :=
  .list (values.map .string)

namespace Written

/-- The text of a written hint, with its texts in quotes and escapes. -/
def text : Written → List Char
  | name s => s
  | choices values => "Literal".toList ++ (textList values).written

/-- A dotted name has a character and consists of word characters and dots; nothing is asked for of
a closed set of texts. -/
def WellFormed : Written → Prop
  | name s => s ≠ [] ∧ ∀ c ∈ s, isNameChar c = true
  | choices _ => True

end Written

/-- A list of texts reads back, whatever the texts are. -/
theorem readable_textList (values : List String) : (textList values).Readable := by
  rw [textList, Literal.Readable]
  induction values with
  | nil => trivial
  | cons s values ih => exact ⟨trivial, ih⟩

/-! ## The text of a hint -/

/-- No character of a name is blank, so names are not trimmed. -/
theorem isBlank_of_isNameChar {c : Char} (h : isNameChar c = true) : isBlank c = false := by
  rw [isNameChar, Bool.or_eq_true, beq_iff_eq] at h
  rcases h with h | rfl
  · exact Text.isBlank_of_isWordChar h
  · rfl

/-- No written string starts or ends with a blank (`Trimmed`): there are quotes around it. So nothing
is trimmed off a row of them. -/
theorem trimmed_writtenItems (values : List String) :
    Trimmed (Literal.writtenItems (values.map .string)) := by
  induction values with
  | nil => exact Text.trimmed_of_forall nofun
  | cons s values ih =>
    have hs : Trimmed (Literal.quoted s) := Text.trimmed_between rfl rfl _
    cases values with
    | nil => exact hs
    | cons t values =>
      obtain ⟨rest, hrest⟩ : ∃ rest, Literal.writtenItems ((t :: values).map .string)
          = '\'' :: rest := by
        rw [List.map_cons, Literal.writtenItems_cons, Literal.written, Literal.quoted]
        exact ⟨_, rfl⟩
      have haround := hs.around ih (List.cons_ne_nil _ _) (hrest ▸ List.cons_ne_nil _ _) [',', ' ']
      rwa [List.append_assoc] at haround

namespace Written

/-- A hint neither starts nor ends with a blank (`Trimmed`), so it is found again in a parameter. -/
theorem trimmed_text : ∀ {h : Written}, h.WellFormed → Trimmed h.text
  | name s, hw => Text.trimmed_of_forall fun c hc => isBlank_of_isNameChar (hw.2 c hc)
  | choices values, _ => by
    have hword : Trimmed "Literal".toList :=
      Text.trimmed_word (Text.forall_mem_of_all (by decide))
    have hlist := Literal.written_trimmed (readable_textList values)
    have haround := hword.around hlist (by decide) (List.cons_ne_nil _ _) []
    rwa [List.append_nil] at haround

/-- A hint has a character, since a name has one and the brackets are always there. -/
theorem text_ne_nil : ∀ {h : Written}, h.WellFormed → h.text ≠ []
  | name _, hw => hw.1
  | choices _, _ => List.cons_ne_nil _ _

/-- No line ends in a hint: strings are written with escapes. -/
theorem newline_notMem_text : ∀ {h : Written}, h.WellFormed → '\n' ∉ h.text
  | name s, hw => fun hc => Literal.ne_newline_of_isNameChar (hw.2 _ hc) rfl
  | choices values, _ => by
    intro hc
    rcases List.mem_append.1 hc with hc | hc
    · exact absurd hc (by decide)
    · exact Literal.newline_notMem_written _ (readable_textList values) hc

/-- A hint scans as one token (`ValueAt`), so no colon, comma or equals sign in it is taken for one
of the parameter list. -/
theorem scans_text (d : Nat) : ∀ {h : Written}, h.WellFormed → Scans (ValueAt d) d h.text
  | name s, hw => Literal.scans_word fun c hc => Literal.isPlain_of_isNameChar (hw.2 c hc)
  | choices values, _ => by
    have hword : ∀ c ∈ "Literal".toList, isPlain c = true ∧ isDelimiter c = false :=
      Text.forall_mem_of_all (by decide)
    exact .plain_append (fun c hc => ⟨(hword c hc).1, Nat.le_refl d, fun _ => (hword c hc).2⟩)
      (Literal.scans_written _ (readable_textList values) d)

end Written

/-! ## Hints that wrap no other one -/

section
variable {hint : List Char}

/-- A hint that starts with another character stands between no quotes, and `unquote` leaves it. -/
theorem unquote_eq {c : Char} {s : List Char} (hc : Source.isQuote c = false) :
    unquote (c :: s) = c :: s := by
  simp only [Source.isQuote, Bool.or_eq_false_iff, beq_eq_false_iff_ne] at hc
  rw [unquote, unquoteBy?, unquoteBy?, if_neg fun h => hc.1 h.1, if_neg fun h => hc.2 h.1]
  rfl

/-- A text that scans as a value (`ValueAt`) is one member of a union: no separator stands outside
its brackets. -/
theorem splitTop_value (sep : Char) (hsep : isDelimiter sep = true)
    (h : Scans (ValueAt 0) 0 hint) : Source.splitTop sep hint = [hint] :=
  Source.splitFrom_piece (h.visits.mono fun _ _ hv hd => (Text.ne_of_kind hsep (hv.2 hd)).symm)

/-- A hint wraps none if it is of no generic type that wraps, and no union (`hbar`). -/
theorem wrapped?_eq_none (hoptional : generic? "Optional" hint = none)
    (hannotated : generic? "Annotated" hint = none) (hunion : generic? "Union" hint = none)
    (hbar : Source.splitTop '|' hint = [hint]) : wrapped? hint = none := by
  rw [wrapped?, hoptional, hannotated, hunion, hbar]
  rfl

/-- A hint that stands for itself (`hwrap`) is read as such, by `readUnwrapped`. -/
theorem read_unwrapped {c : Char} {s : List Char} (htrim : Trimmed (c :: s))
    (hquote : Source.isQuote c = false) (hwrap : wrapped? (c :: s) = none) :
    read (c :: s) = readUnwrapped (c :: s) := by
  rw [read, List.length_cons, readWithin, htrim.trim_eq, unquote_eq hquote, hwrap]

end

/-- A name is of no generic type: it has no brackets. -/
theorem generic?_name {s : List Char} (h : ∀ c ∈ s, isNameChar c = true) (name : String) :
    generic? name s = none := by
  have hdrop : s.dropWhile (· != '[') = [] := by
    have hrun := (Text.stops_nil (· != '[')).dropWhile_run fun c hc =>
      bne_iff_ne.2 (Text.ne_of_kind (h c hc) rfl)
    rwa [List.append_nil] at hrun
  rw [generic?, hdrop]

/-- **A dotted name stands for the type of its name** (`ofName`). -/
theorem read_name {s : List Char} (hs : s ≠ []) (h : ∀ c ∈ s, isNameChar c = true) :
    read s = .ok (ofName s) := by
  have hwritten : (Written.name s).WellFormed := ⟨hs, h⟩
  have hbar := splitTop_value '|' rfl (Written.scans_text 0 hwritten)
  have hwrap : wrapped? s = none :=
    wrapped?_eq_none (generic?_name h _) (generic?_name h _) (generic?_name h _) hbar
  obtain ⟨c, t, rfl⟩ := List.exists_cons_of_ne_nil hs
  have hquote := Source.ScanState.isQuote_of_isPlain
    (Literal.isPlain_of_isNameChar (h c List.mem_cons_self)).1
  rw [read_unwrapped (Written.trimmed_text hwritten) hquote hwrap, readUnwrapped, generic?_name h]

/-! ## Closed sets -/

/-- The inside of the brackets of a hint is found behind the name of its generic type, here
`Literal`, and behind no other `name`. -/
theorem generic?_written (name : String) (values : List String) :
    generic? name (Written.choices values).text
      = if name = "Literal" then some (Literal.writtenItems (values.map .string)) else none := by
  have hstop (s : List Char) : Text.Stops (· != '[') ('[' :: s) := Text.stops_cons rfl s
  have hword : ∀ c ∈ "Literal".toList, (c != '[') = true := Text.forall_mem_of_all (by decide)
  have htext : (Written.choices values).text
      = "Literal".toList ++ '[' :: (Literal.writtenItems (values.map .string) ++ [']']) := rfl
  have hsegment : lastSegment "Literal".toList = "Literal".toList := by decide
  have hinside : trimEnd (Literal.writtenItems (values.map .string) ++ [']'])
      = Literal.writtenItems (values.map .string) ++ [']'] := by
    rw [trimEnd, List.reverse_append, List.reverse_singleton, List.singleton_append,
      List.dropWhile_cons_of_neg (by decide), List.reverse_cons, List.reverse_reverse]
  rw [generic?, htext, (hstop _).dropWhile_run hword, (hstop _).takeWhile_run hword]
  dsimp only
  rw [hsegment, hinside, List.getLast?_concat, List.dropLast_concat,
    (trimmed_writtenItems values).trim_eq]
  simp only [String.toList_inj, and_true, eq_comm]

/-- The texts of written strings are the strings, in their order. -/
theorem choices_strings (values : List String) :
    choices (values.map .string) = .ok values := by
  induction values with
  | nil => rfl
  | cons s values ih =>
    rw [List.map_cons, choices]
    dsimp only [Literal.text?]
    rw [ih]
    rfl

/-- **`Literal[...]` over written strings stands for the closed set of the strings**
(`TypeTag.choice`), whatever characters are in them. -/
theorem read_choices (values : List String) :
    read (Written.choices values).text = .ok (.choice values) := by
  have hwritten : (Written.choices values).WellFormed := trivial
  have hgeneric (name : String) (h : name ≠ "Literal") :
      generic? name (Written.choices values).text = none := by
    rw [generic?_written, if_neg h]
  have hbar := splitTop_value '|' rfl (Written.scans_text 0 hwritten)
  have hwrap : wrapped? (Written.choices values).text = none :=
    wrapped?_eq_none (hgeneric _ (by decide)) (hgeneric _ (by decide)) (hgeneric _ (by decide)) hbar
  have hread : readUnwrapped (Written.choices values).text = .ok (.choice values) := by
    have hlist := Literal.read_written (readable_textList values)
    rw [readUnwrapped, generic?_written, if_pos rfl]
    dsimp only
    rw [readChoices]
    rw [textList, Literal.written] at hlist
    rw [hlist]
    dsimp only
    rw [choices_strings]
    rfl
  rw [← hread]
  exact read_unwrapped (Written.trimmed_text hwritten) rfl hwrap

end WorkflowTemplates.TypeHint
