import WorkflowTemplates.Proofs.Source.Hint
import WorkflowTemplates.Proofs.Source.Unwrapped

/-!
# Dotted names in type hints

Of a dotted name only the last segment decides which type it is (`DottedName.read_text`). A hint
reads the last segment of a name off a text by its last dot, whatever stands before it
(`lastSegment_dot`), and the arguments of a generic type between the first bracket of a text and the
one at its end (`generic?_closed`).
-/

namespace WorkflowTemplates

open Text (isWordChar)

/-- Whether a text is a word: it has a character, and each is a letter, a digit or an underscore
(`isWordChar`). -/
def isWord (s : List Char) : Bool :=
  !s.isEmpty && s.all isWordChar

/-- A word has a character, and all of its characters are word characters. -/
theorem isWord_iff {s : List Char} :
    isWord s = true ↔ s ≠ [] ∧ ∀ c ∈ s, isWordChar c = true := by
  simp [isWord]

/-- A name of words with dots between them, such as those of modules: the words before the last one,
and the last. -/
structure DottedName where
  qualifiers : List (List Char)
  last : List Char
  areWords : (last :: qualifiers).all isWord = true

/-- The text of a dotted name: each qualifier with a dot behind it, and the last word. -/
def DottedName.text (n : DottedName) : List Char :=
  n.qualifiers.flatMap (· ++ ['.']) ++ n.last

namespace TypeHint

open Literal (isNameChar)
open Text (Stops isBlank trim trimEnd)

variable {hint front w : List Char}

/-! ## Last segments -/

/-- The last segment behind a dot is a word, if a word is behind it, whatever stands in `front` of
the dot. -/
theorem lastSegment_dot (h : ∀ c ∈ w, isWordChar c = true) (front : List Char) :
    lastSegment (front ++ '.' :: w) = w := by
  have hreverse : (front ++ '.' :: w).reverse = w.reverse ++ '.' :: front.reverse := by simp
  have hstop : Stops (· != '.') ('.' :: front.reverse) := Text.stops_cons rfl _
  have hrun : ∀ c ∈ w.reverse, (c != '.') = true := fun c hc =>
    bne_iff_ne.2 (Text.ne_of_kind (h c (List.mem_reverse.1 hc)) (by decide))
  rw [lastSegment, hreverse, hstop.takeWhile_run hrun, List.reverse_reverse,
    (Text.trimmed_word h).trim_eq]

/-- A word is its last segment: there is no dot in it. -/
theorem lastSegment_word (h : ∀ c ∈ w, isWordChar c = true) : lastSegment w = w := by
  have hrun : ∀ c ∈ w.reverse, (c != '.') = true := fun c hc =>
    bne_iff_ne.2 (Text.ne_of_kind (h c (List.mem_reverse.1 hc)) (by decide))
  have htake := (Text.stops_nil (· != '.')).takeWhile_run hrun
  rw [List.append_nil] at htake
  rw [lastSegment, htake, List.reverse_reverse, (Text.trimmed_word h).trim_eq]

/-- What stands behind the last dot is in the last segment, unless it is trimmed away as a blank. -/
theorem mem_lastSegment {c : Char} (hdot : '.' ∉ w) (hc : c ∈ w) (hblank : isBlank c = false)
    (front : List Char) : c ∈ lastSegment (front ++ w) := by
  have hrun : ∀ c ∈ w.reverse, (c != '.') = true := by
    intro c hc
    rw [bne_iff_ne]
    rintro rfl
    exact hdot (List.mem_reverse.1 hc)
  refine Text.mem_trim ?_ hblank
  rw [List.mem_reverse, List.reverse_append, List.takeWhile_append_of_pos hrun]
  exact List.mem_append_left _ (List.mem_reverse.2 hc)

/-! ## Types of names -/

/-- The types that have names of their own, under the names that Python has for them. -/
def basicType? : String → Option TypeTag
  | "str" => some .string
  | "int" => some .integer
  | "float" => some .float
  | "bool" => some .boolean
  | "complex" => some .complex
  | "ValueFrom" => some .reference
  | _ => none

/-- The last segment of a hint decides whether it is the name of a type (`basicType?`); any other
hint is a custom type, under its whole text. -/
theorem ofName_eq (hint : List Char) :
    ofName hint = (basicType? (String.ofList (lastSegment hint))).getD
      (.custom (String.ofList hint)) := by
  unfold ofName
  generalize String.ofList (lastSegment hint) = s
  split <;> simp_all [basicType?]

/-- Only words name types, so a hint whose last segment is no word is a custom type. -/
theorem isWordChar_of_basicType? {s : String} {type : TypeTag} (h : basicType? s = some type) :
    ∀ c ∈ s.toList, isWordChar c = true := by
  unfold basicType? at h
  split at h
  case h_7 => cases h
  all_goals exact Text.forall_mem_of_all (by decide)

/-- No custom type has a name of its own, so a type tells whether its name is one of `basicType?`.
-/
theorem ne_custom_of_basicType? {s : String} {type : TypeTag} (h : basicType? s = some type)
    (custom : String) : type ≠ .custom custom := by
  rintro rfl
  unfold basicType? at h
  split at h <;> cases h

end TypeHint

namespace DottedName

open Literal (isNameChar)
open TypeHint (basicType? lastSegment lastSegment_dot lastSegment_word)

variable (n : DottedName)

/-- The last word of a name is a word, by `DottedName.areWords`. -/
theorem isWord_last : n.last ≠ [] ∧ ∀ c ∈ n.last, isWordChar c = true :=
  isWord_iff.1 (List.all_eq_true.1 n.areWords _ List.mem_cons_self)

/-- A name has a character and consists of word characters and dots, as a written hint must
(`Written`). -/
theorem wellFormed_text : (TypeHint.Written.name n.text).WellFormed := by
  refine ⟨fun hnil => n.isWord_last.1 (List.append_eq_nil_iff.1 hnil).2, fun c hc => ?_⟩
  rw [isNameChar, Bool.or_eq_true, beq_iff_eq]
  rcases List.mem_append.1 hc with hc | hc
  · obtain ⟨s, hs, hc⟩ := List.mem_flatMap.1 hc
    have hword := isWord_iff.1 (List.all_eq_true.1 n.areWords s (List.mem_cons_of_mem _ hs))
    rcases List.mem_append.1 hc with hc | hc
    · exact .inl (hword.2 c hc)
    · exact .inr (List.mem_singleton.1 hc)
  · exact .inl (n.isWord_last.2 c hc)

/-- A name with qualifiers has a dot before its last word. -/
theorem exists_text_eq_dot (h : n.qualifiers ≠ []) : ∃ front, n.text = front ++ '.' :: n.last := by
  obtain ⟨init, s, hinit⟩ := (List.eq_nil_or_concat n.qualifiers).resolve_left h
  refine ⟨init.flatMap (· ++ ['.']) ++ s, ?_⟩
  rw [text, hinit]
  simp

/-- A name without qualifiers is its last word, so it has no dot. -/
theorem text_eq_last (h : n.qualifiers = []) : n.text = n.last := by
  rw [text, h]
  rfl

/-- The last segment of a name is its last word, also behind another text (`front`) if the name has
qualifiers: then a dot is between the two. -/
theorem lastSegment_append_text {front : List Char} (h : front = [] ∨ n.qualifiers ≠ []) :
    lastSegment (front ++ n.text) = n.last := by
  by_cases hq : n.qualifiers = []
  · obtain rfl := h.resolve_right (not_not.2 hq)
    rw [List.nil_append, n.text_eq_last hq, lastSegment_word n.isWord_last.2]
  · obtain ⟨s, hs⟩ := n.exists_text_eq_dot hq
    rw [hs, ← List.append_assoc, lastSegment_dot n.isWord_last.2]

/-- The type that a name stands for: the one that has its last word for a name, or else a type of
its own. -/
def type : TypeTag :=
  (basicType? (String.ofList n.last)).getD (.custom (String.ofList n.text))

/-- **A dotted name stands for the type of its last word**, or for a type of its own
(`DottedName.type`), as no qualifier matters. -/
theorem read_text : TypeHint.read n.text = .ok n.type := by
  have hlast := n.lastSegment_append_text (.inl rfl)
  rw [List.nil_append] at hlast
  rw [TypeHint.read_name n.wellFormed_text.1 n.wellFormed_text.2, TypeHint.ofName_eq, hlast, type]

end DottedName

/-! ## Generic types -/

/-- A generic type of a name, with its arguments in square brackets. -/
def DottedName.applied (n : DottedName) (args : List Char) : List Char :=
  n.text ++ '[' :: (args ++ [']'])

section
open Source.ScanState (Scans)
open Literal (isNameChar)

/-- No bracket stands in a name, so the first one is that of the arguments. -/
theorem DottedName.bracket_notMem_text (n : DottedName) : '[' ∉ n.text := fun hmem =>
  Text.ne_of_kind (n.wellFormed_text.2 _ hmem) (by decide) rfl

/-- A generic type starts with its name and ends with a bracket, so there is nothing to trim. -/
theorem DottedName.trimmed_applied (n : DottedName) (args : List Char) :
    Text.Trimmed (n.applied args) := by
  have hname := TypeHint.Written.trimmed_text n.wellFormed_text
  have hbracket : Text.Trimmed [']'] :=
    Text.trimmed_of_forall (Text.forall_mem_of_all (by decide))
  have haround := hname.around hbracket n.wellFormed_text.1 (List.cons_ne_nil _ _) ('[' :: args)
  rwa [applied, ← List.cons_append, ← List.append_assoc]

/-- A generic type scans as one token if its arguments stay inside their brackets: only the name and
the opening bracket are met at the depth `d` of the type itself. -/
theorem DottedName.scans_applied (n : DottedName) {args : List Char} {d : Nat}
    {p : Nat → Char → Prop} (h : Scans (fun e _ => d + 1 ≤ e) (d + 1) args)
    (hname : ∀ c, isNameChar c = true → p d c) (hopen : p d '[')
    (hinside : ∀ e c, d + 1 ≤ e → p e c) : Scans p d (n.applied args) := by
  have hbrackets : Scans p d ('[' :: args ++ [']']) :=
    (h.mono hinside).enclosed rfl rfl hopen (hinside _ _ (Nat.le_refl _))
  refine .plain_append (fun c hc => ?_) hbrackets
  have hc := n.wellFormed_text.2 c hc
  exact ⟨(Literal.isPlain_of_isNameChar hc).1, hname c hc⟩

end

namespace TypeHint

open Text (isBlank trim trimEnd)

variable {hint head inside : List Char} {name : String}

/-! ## Arguments of generic types -/

/-- A hint without brackets is of no generic type, whatever the `name`. -/
theorem generic?_eq_none_of_notMem (h : '[' ∉ hint) : generic? name hint = none := by
  have hdrop : hint.dropWhile (· != '[') = [] := by
    rw [List.dropWhile_eq_nil_iff]
    intro c hc
    rw [bne_iff_ne]
    rintro rfl
    exact h hc
  rw [generic?, hdrop]

/-- The name of a generic type is what stands before the first bracket, and its arguments what
stands between that one and a bracket at the end. -/
theorem generic?_closed (hhead : '[' ∉ head) (name : String) (inside : List Char) :
    generic? name (head ++ '[' :: (inside ++ [']']))
      = if lastSegment head = name.toList then some (trim inside) else none := by
  have hrun : ∀ c ∈ head, (c != '[') = true := by
    intro c hc
    rw [bne_iff_ne]
    rintro rfl
    exact hhead hc
  have hstop : Text.Stops (· != '[') ('[' :: (inside ++ [']'])) := Text.stops_cons rfl _
  have htrim : trimEnd (inside ++ [']']) = inside ++ [']'] :=
    Text.trimEnd_append_cons rfl inside []
  rw [generic?, hstop.dropWhile_run hrun, hstop.takeWhile_run hrun]
  dsimp only
  rw [htrim, List.getLast?_concat, List.dropLast_concat]
  simp only [and_true]

/-- A hint that does not end with a bracket is of no generic type, even if there are brackets in it.
-/
theorem generic?_concat_eq_none {c : Char} (hblank : isBlank c = false) (hc : c ≠ ']')
    (s : List Char) : generic? name (s ++ [c]) = none := by
  have hsuffix := List.dropWhile_suffix (· != '[') (l := s ++ [c])
  unfold generic?
  split
  · rfl
  · next first inside hinside =>
    refine if_neg fun h => ?_
    rcases List.eq_nil_or_concat' inside with rfl | ⟨t, last, rfl⟩
    · cases h.2
    · rw [hinside, ← List.cons_append] at hsuffix
      obtain ⟨front, hfront⟩ := hsuffix
      rw [← List.append_assoc] at hfront
      obtain ⟨-, hlast⟩ := List.append_inj' hfront rfl
      obtain rfl := List.singleton_inj.1 hlast
      have htrim : trimEnd (t ++ [last]) = t ++ [last] := Text.trimEnd_append_cons hblank t []
      rw [htrim, List.getLast?_concat] at h
      exact hc (Option.some.inj h.2)

end TypeHint

end WorkflowTemplates
