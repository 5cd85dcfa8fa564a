import WorkflowTemplates.Proofs.Source.Balanced
import WorkflowTemplates.Proofs.Source.Bars

/-!
# Hints that only wrap a name

`Optional`, `Annotated`, and unions with the type of no value do not change what a hint stands for,
however they are nested (`read_wrapAll`). They are not taken off one by one: a generic type is one
layer (`Generic.read_append_around`), but all bars around it are another (`read_amongNone`), and
behind bars a generic type that is named with its module is read off the whole first, because its
name starts behind the last dot. So the induction on the wrappers carries the number of bars on
both sides (`read_amongNone_wrapAll`).
-/

namespace WorkflowTemplates.TypeHint

open Literal (isNameChar)
open Source (isQuote splitTop)
open Source.ScanState (Scans isPlain scans_plain)
open Text (Trimmed isBlank trim)

/-! ## Wrappers -/

/-- The name of the type of no value, as unions have it. -/
def noneName : List Char := "None".toList

/-- The name of the type of no value consists of word characters, so it is a name. -/
theorem isNameChar_noneName : ∀ c ∈ noneName, isNameChar c = true :=
  Text.forall_mem_of_all (by decide +kernel)

/-- The modules that generic types are named from, or none. -/
inductive Home
  | bare
  | typing
  | extensions

/-- The qualifiers of the names from a module, at most one. -/
def Home.qualifiers : Home → List (List Char)
  | bare => []
  | typing => ["typing".toList]
  | extensions => ["typing_extensions".toList]

/-- The names of modules are words, as `DottedName` asks for. -/
theorem Home.areWords_qualifiers (home : Home) : home.qualifiers.all isWord = true := by
  cases home <;> decide +kernel

/-- Two arguments with a comma between them, and a space behind it. -/
def argumentPair (a b : List Char) : List Char :=
  a ++ ',' :: ' ' :: b

/-- The generic types that wrap a hint: an optional one, the two unions with the type of no value,
and one with metadata behind the hint. -/
inductive Generic
  | optional
  | unionNone
  | noneUnion
  | annotated (metadata : DottedName)

namespace Generic

/-- The name of a generic type, without its module. -/
def name : Generic → String
  | optional => "Optional"
  | unionNone | noneUnion => "Union"
  | annotated _ => "Annotated"

/-- The name of a generic type is a word, so it is the last one of a `DottedName`. -/
theorem isWord_name (g : Generic) : isWord g.name.toList = true := by
  cases g <;> rw [name] <;> decide +kernel

/-- The name of a generic type from a module (`home`), as it stands before the bracket. -/
def head (g : Generic) (home : Home) : DottedName where
  qualifiers := home.qualifiers
  last := g.name.toList
  areWords := by rw [List.all_cons, g.isWord_name, home.areWords_qualifiers, Bool.and_self]

/-- The arguments of a generic type around a hint, among which the hint stands. -/
def inside : Generic → List Char → List Char
  | optional, hint => hint
  | unionNone, hint => argumentPair hint noneName
  | noneUnion, hint => argumentPair noneName hint
  | annotated metadata, hint => argumentPair hint metadata.text

/-- A generic type around a hint: its name, and the arguments in brackets. -/
def around (g : Generic) (home : Home) (hint : List Char) : List Char :=
  (g.head home).applied (g.inside hint)

end Generic

/-- What stands around a hint without changing what it stands for: a generic type, or the type of no
value on either side of a bar. -/
inductive Wrapper
  | generic (g : Generic) (home : Home)
  | barNone
  | noneBar

/-- A hint with a wrapper around it, as it is written. -/
def Wrapper.around : Wrapper → List Char → List Char
  | generic g home, hint => g.around home hint
  | barNone, hint => joinBars [hint, noneName]
  | noneBar, hint => joinBars [noneName, hint]

/-- A hint with wrappers around it, the first of them outermost, in any number. -/
def wrapAll (ws : List Wrapper) (hint : List Char) : List Char :=
  ws.foldr Wrapper.around hint

/-! ## Hints inside brackets -/

/-- No comma stands where no further bracket is open than at first, and no fewer ever are. -/
def ArgumentAt (depth d : Nat) (c : Char) : Prop :=
  depth ≤ d ∧ (d = depth → c ≠ ',')

/-- A text is one argument of generic types: it neither is empty nor starts or ends with a blank,
and no comma stands in it outside brackets and strings (`ArgumentAt`). -/
structure IsArgument (hint : List Char) : Prop where
  trimmed : Trimmed hint
  ne_nil : hint ≠ []
  scans : ∀ d, Scans (ArgumentAt d) d hint

variable {hint a b : List Char} {g : Generic} {home : Home}

/-- Characters of names are plain and no commas, so they may stand in an argument (`ArgumentAt`). -/
theorem argumentAt_of_isNameChar {c : Char} (h : isNameChar c = true) (d : Nat) :
    isPlain c = true ∧ ArgumentAt d d c :=
  ⟨(Literal.isPlain_of_isNameChar h).1, Nat.le_refl d, fun _ => Text.ne_of_kind h (by decide)⟩

/-- A dotted name is an argument (`IsArgument`). -/
theorem isArgument_name {s : List Char} (hs : s ≠ []) (h : ∀ c ∈ s, isNameChar c = true) :
    IsArgument s where
  trimmed := Text.trimmed_of_forall fun c hc => isBlank_of_isNameChar (h c hc)
  ne_nil := hs
  scans d := scans_plain fun c hc => argumentAt_of_isNameChar (h c hc) d

/-- The text of a dotted name is an argument (`IsArgument`), with its qualifiers. -/
theorem isArgument_text (n : DottedName) : IsArgument n.text :=
  isArgument_name n.wellFormed_text.1 n.wellFormed_text.2

/-- The type of no value is an argument (`IsArgument`), as its name is a word. -/
theorem isArgument_noneName : IsArgument noneName :=
  isArgument_name (by decide) isNameChar_noneName

section
variable (ha : IsArgument a) (hb : IsArgument b)
include ha hb

/-- Two arguments are trimmed together, as each is. -/
theorem trimmed_argumentPair : Trimmed (argumentPair a b) := by
  have haround := ha.trimmed.around hb.trimmed ha.ne_nil hb.ne_nil [',', ' ']
  rwa [List.append_assoc] at haround

/-- Two arguments stay inside their brackets: the comma between them stands there, too. -/
theorem scans_argumentPair (d : Nat) : Scans (fun e _ => d ≤ e) d (argumentPair a b) :=
  ((ha.scans d).mono fun _ _ he => he.1).append_cons rfl (Nat.le_refl d)
    (((hb.scans d).mono fun _ _ he => he.1).cons rfl (Nat.le_refl d))

/-- Two arguments are told apart by the comma between them, the only one outside their own brackets.
-/
theorem splitTop_argumentPair : splitTop ',' (argumentPair a b) = [a, ' ' :: b] := by
  have hcomma : isPlain ',' = true := rfl
  have hfirst := (ha.scans 0).mono fun _ _ he => he.2
  have hblank : Scans (ArgumentAt 0) 0 (' ' :: b) :=
    (hb.scans 0).cons rfl ⟨Nat.le_refl 0, fun _ => by decide⟩
  have hsecond : splitTop ',' (' ' :: b) = [' ' :: b] :=
    Source.splitFrom_piece (hblank.visits.mono fun _ _ he => he.2)
  exact (Source.splitFrom_cons hcomma hfirst (' ' :: b)).trans (congrArg (a :: ·) hsecond)

end

namespace Generic

/-- The arguments of a generic type stay inside its brackets, whichever it is (`IsArgument`). -/
theorem scans_inside (h : IsArgument hint) (d : Nat) :
    ∀ g : Generic, Scans (fun e _ => d ≤ e) d (g.inside hint)
  | optional => (h.scans d).mono fun _ _ he => he.1
  | unionNone => scans_argumentPair h isArgument_noneName d
  | noneUnion => scans_argumentPair isArgument_noneName h d
  | annotated metadata => scans_argumentPair h (isArgument_text metadata) d

/-- The arguments of a generic type are trimmed, so they are read as they are written
(`IsArgument`). -/
theorem trimmed_inside (h : IsArgument hint) : ∀ g : Generic, Trimmed (g.inside hint)
  | optional => h.trimmed
  | unionNone => trimmed_argumentPair h isArgument_noneName
  | noneUnion => trimmed_argumentPair isArgument_noneName h
  | annotated metadata => trimmed_argumentPair h (isArgument_text metadata)

/-- A generic type has a bracket, so it is not the type of no value. -/
theorem isNone_around (g : Generic) (home : Home) (hint : List Char) :
    TypeHint.isNone (g.around home hint) = false :=
  isNone_eq_false (c := '[') (List.mem_append_right _ List.mem_cons_self) rfl

/-- A generic type around an argument is an argument (`IsArgument`), so wrappers may be nested. -/
theorem isArgument_around (h : IsArgument hint) (g : Generic) (home : Home) :
    IsArgument (g.around home hint) where
  trimmed := (g.head home).trimmed_applied _
  ne_nil := (isMember_applied (g.head home) (scans_inside h 1 g)).ne_nil
  scans d := (g.head home).scans_applied (scans_inside h (d + 1) g)
    (fun _ hc => (argumentAt_of_isNameChar hc d).2) ⟨Nat.le_refl d, fun _ => by decide⟩
    fun _ _ he => ⟨by omega, fun hed => by omega⟩

/-- A generic type around an argument is a member of unions (`IsMember`): it has no bar outside its
brackets. -/
theorem isMember_around (h : IsArgument hint) (g : Generic) (home : Home) :
    IsMember (g.around home hint) :=
  isMember_applied _ (scans_inside h 1 g)

end Generic

/-- Arguments with a bar between them are an argument (`IsArgument`): a bar is no comma. -/
theorem isArgument_joinBars (ha : IsArgument a) (hb : IsArgument b) :
    IsArgument (joinBars [a, b]) where
  trimmed := by
    rw [joinBars, List.flatMap_singleton, ← List.append_assoc]
    exact ha.trimmed.around hb.trimmed ha.ne_nil hb.ne_nil bar
  ne_nil := fun hnil => ha.ne_nil (List.append_eq_nil_iff.1 hnil).1
  scans d := by
    have hplain {c : Char} (hc : c ≠ ',') : ArgumentAt d d c := ⟨Nat.le_refl d, fun _ => hc⟩
    rw [joinBars, List.flatMap_singleton]
    exact (ha.scans d).append_cons rfl (hplain (by decide))
      (.cons rfl (hplain (by decide)) (.cons rfl (hplain (by decide)) (hb.scans d)))

/-- A union with a bar is not the type of no value, whose name is a word. -/
theorem isNone_joinBars (a b : List Char) : isNone (joinBars [a, b]) = false :=
  isNone_eq_false (c := '|') (by simp [joinBars, bar]) rfl

/-- A hint with wrappers around it is an argument, and not the type of no value, by induction over
the wrappers. -/
theorem isArgument_wrapAll (h : IsArgument hint) (hnone : isNone hint = false)
    (ws : List Wrapper) :
    IsArgument (wrapAll ws hint) ∧ isNone (wrapAll ws hint) = false := by
  induction ws with
  | nil => exact ⟨h, hnone⟩
  | cons w ws ih =>
    cases w with
    | generic g home => exact ⟨g.isArgument_around ih.1 home, g.isNone_around home _⟩
    | barNone => exact ⟨isArgument_joinBars ih.1 isArgument_noneName, isNone_joinBars _ _⟩
    | noneBar => exact ⟨isArgument_joinBars isArgument_noneName ih.1, isNone_joinBars _ _⟩

/-! ## One layer -/

/-- A trimmed hint without quotes around it that wraps another one (`wrapped?`) is read as that one.
-/
theorem read_of_wrapped? {inner : List Char} (htrim : Trimmed hint) (hquote : unquote hint = hint)
    (h : wrapped? hint = some inner) : read hint = read inner := by
  rw [read_eq, htrim.trim_eq, hquote, h]

/-- Of an argument and the type of no value, in any order, the argument is the only member with a
value (`onlyMember?`). -/
theorem onlyMember?_argumentPair (h : IsArgument hint) (hnone : isNone hint = false) :
    onlyMember? (splitTop ',' (argumentPair hint noneName)) = some hint
      ∧ onlyMember? (splitTop ',' (argumentPair noneName hint)) = some hint := by
  have hname : isNone noneName = true := by decide
  rw [splitTop_argumentPair h isArgument_noneName, splitTop_argumentPair isArgument_noneName h]
  simp [onlyMember?, Text.trim_blank_cons, h.trimmed.trim_eq, isArgument_noneName.trimmed.trim_eq,
    hnone, hname]

namespace Generic

/-- A hint off which a generic type is read, and no other one (`hother`), wraps what the generic
type wraps. -/
theorem wrapped?_eq {whole : List Char} (h : IsArgument hint) (hnone : TypeHint.isNone hint = false)
    (g : Generic) (hread : generic? g.name whole = some (g.inside hint))
    (hother : ∀ name, name ≠ g.name → generic? name whole = none) :
    wrapped? whole = some hint := by
  have hunion (hname : g.name = "Union")
      (honly : onlyMember? (splitTop ',' (g.inside hint)) = some hint) :
      wrapped? whole = some hint := by
    rw [hname] at hread hother
    rw [wrapped?, hother "Optional" (by decide), hother "Annotated" (by decide), hread,
      Option.bind_some, honly]
    rfl
  obtain ⟨hbehind, hbefore⟩ := onlyMember?_argumentPair h hnone
  cases g with
  | optional =>
    have hread : generic? "Optional" whole = some hint := hread
    rw [wrapped?, hread]
    rfl
  | annotated metadata =>
    have hread : generic? "Annotated" whole = some (argumentPair hint metadata.text) := hread
    rw [wrapped?, hother "Optional" (by simp [name]), hread, Option.none_or, Option.bind_some,
      splitTop_argumentPair h (isArgument_text metadata)]
    rfl
  | unionNone => exact hunion rfl hbehind
  | noneUnion => exact hunion rfl hbefore

/-- A generic type is taken off as one layer, also behind another text (`front`) in which no bracket
stands, if there is none or the generic type is named with its module. -/
theorem read_append_around (h : IsArgument hint) (hnone : TypeHint.isNone hint = false)
    (g : Generic) (home : Home) {front : List Char} (hbracket : '[' ∉ front)
    (hfront : front = [] ∨ home.qualifiers ≠ []) (htrim : Trimmed (front ++ g.around home hint)) :
    read (front ++ g.around home hint) = read hint := by
  have hhead : '[' ∉ front ++ (g.head home).text :=
    List.mem_append.not.2 (not_or.2 ⟨hbracket, (g.head home).bracket_notMem_text⟩)
  have hsegment : lastSegment (front ++ (g.head home).text) = g.name.toList :=
    (g.head home).lastSegment_append_text hfront
  have hgeneric (name : String) : generic? name (front ++ g.around home hint)
      = if g.name = name then some (g.inside hint) else none := by
    rw [around, DottedName.applied, ← List.append_assoc, generic?_closed hhead, hsegment,
      (trimmed_inside h g).trim_eq]
    simp only [String.toList_inj]
  have hquote : unquote (front ++ g.around home hint) = front ++ g.around home hint := by
    rw [around, DottedName.applied, ← List.cons_append, ← List.append_assoc, ← List.append_assoc]
    exact unquote_concat rfl _
  refine read_of_wrapped? htrim hquote (wrapped?_eq h hnone g ?_ fun name hname => ?_)
  · rw [hgeneric, if_pos rfl]
  · rw [hgeneric, if_neg hname.symm]

end Generic

/-! ## Bars -/

/-- The type of no value is a member of unions (`IsMember`). -/
theorem isMember_noneName : IsMember noneName :=
  isMember_name (by decide) isNameChar_noneName

/-- A hint between bars, with the type of no value `a` times before and `b` times behind it. -/
def amongNone (a : Nat) (hint : List Char) (b : Nat) : List Char :=
  joinBars (List.replicate a noneName ++ hint :: List.replicate b noneName)

/-- The type of no value so many times before a hint, with bars between and one at the end. -/
def nonesBefore (a : Nat) : List Char :=
  (List.replicate a noneName).flatMap (· ++ bar)

/-- The type of no value so many times behind a hint, with bars between and one at the start. -/
def nonesBehind (b : Nat) : List Char :=
  (List.replicate b noneName).flatMap (bar ++ ·)

/-- A hint between bars stands between what is before it (`nonesBefore`) and what is behind it
(`nonesBehind`). -/
theorem amongNone_eq (a : Nat) (hint : List Char) (b : Nat) :
    amongNone a hint b = nonesBefore a ++ (hint ++ nonesBehind b) :=
  joinBars_append_cons _ _ _

/-- The type of no value has no brackets, so the first bracket is that of the hint. -/
theorem bracket_notMem_nones (n : Nat) : '[' ∉ nonesBefore n ∧ '[' ∉ nonesBehind n := by
  simp [nonesBefore, nonesBehind, noneName, bar]

/-- What stands behind a hint ends with the name of the type of no value, so with no bracket. -/
theorem exists_nonesBehind_succ (b : Nat) : ∃ s, nonesBehind (b + 1) = s ++ ['e'] := by
  refine ⟨nonesBehind b ++ bar ++ "Non".toList, ?_⟩
  have hname : noneName = "Non".toList ++ ['e'] := by decide
  rw [nonesBehind, List.replicate_succ', List.flatMap_append, List.flatMap_singleton, nonesBehind]
  simp only [List.append_assoc, ← hname]

/-- What stands before a hint ends with a bar, so the name of the hint starts behind it. -/
theorem exists_nonesBefore_succ (a : Nat) : ∃ s, nonesBefore (a + 1) = s ++ bar := by
  refine ⟨nonesBefore a ++ noneName, ?_⟩
  rw [nonesBefore, List.replicate_succ', List.flatMap_append, List.flatMap_singleton,
    ← List.append_assoc, nonesBefore]

/-- Between no bars there is just the hint, by which the induction starts. -/
theorem amongNone_zero (hint : List Char) : amongNone 0 hint 0 = hint := by
  rw [amongNone, List.replicate_zero, List.nil_append, joinBars, List.flatMap_nil, List.append_nil]

/-- A union inside a union is part of it: bars are not nested. -/
theorem joinBars_joinBars (before : List (List Char)) (m : List Char)
    (rest after : List (List Char)) :
    joinBars (before ++ joinBars (m :: rest) :: after)
      = joinBars (before ++ m :: (rest ++ after)) := by
  rw [joinBars_append_cons, joinBars_append_cons, joinBars, List.flatMap_append, List.append_assoc]

/-- The members of a union with the type of no value are members (`IsMember`), the hint among them.
-/
theorem isMember_amongNone (h : IsMember hint) (a b : Nat) :
    ∀ m ∈ List.replicate a noneName ++ hint :: List.replicate b noneName, IsMember m := by
  intro m hm
  simp only [List.mem_append, List.mem_cons, List.mem_replicate] at hm
  rcases hm with ⟨-, rfl⟩ | rfl | ⟨-, rfl⟩
  · exact isMember_noneName
  · exact h
  · exact isMember_noneName

/-- Among bars, all of them are taken off at once, unless a generic type is read off the whole
(`hgeneric`). -/
theorem read_amongNone {a b : Nat} (hpos : 0 < a + b) (hmember : IsMember hint)
    (hnone : isNone hint = false)
    (hgeneric : ∀ name ∈ ["Optional", "Annotated", "Union"],
      generic? name (amongNone a hint b) = none) :
    read (amongNone a hint b) = read hint := by
  have hname : isNone noneName = true := by decide
  have hms := isMember_amongNone hmember a b
  have hfilter : (List.replicate a noneName ++ hint :: List.replicate b noneName).filter
      (!isNone ·) = [hint] := by
    simp [hnone, hname]
  have hlength : 2 ≤ (List.replicate a noneName ++ hint :: List.replicate b noneName).length := by
    simp only [List.length_append, List.length_cons, List.length_replicate]
    omega
  have hquote : unquote (amongNone a hint b) = amongNone a hint b := by
    cases b with
    | succ b =>
      obtain ⟨s, hs⟩ := exists_nonesBehind_succ b
      rw [amongNone_eq, hs, ← List.append_assoc, ← List.append_assoc, unquote_concat rfl]
    | zero =>
      obtain ⟨a, rfl⟩ := Nat.exists_eq_succ_of_ne_zero (by omega : a ≠ 0)
      exact unquote_eq (c := 'N') rfl
  have hwrapped := wrapped?_joinBars hms hlength (hgeneric "Optional" (by simp))
    (hgeneric "Annotated" (by simp)) fun inside hinside =>
      nomatch (hgeneric "Union" (by simp)).symm.trans hinside
  rw [onlyMember?_joinBars hms hfilter] at hwrapped
  exact read_of_wrapped? (trimmed_joinBars hms) hquote hwrapped

/-! ## All wrappers -/

/-- Among bars, a generic type behind which the type of no value stands is not read off the whole,
nor is one in front of which it stands if it is named without its module (`hbare`). -/
theorem generic?_amongNone {a b : Nat} (hpos : 0 < a + b)
    (hbare : b = 0 → home.qualifiers = []) {name : String} (hname : '|' ∉ name.toList) :
    generic? name (amongNone a (g.around home hint) b) = none := by
  rw [amongNone_eq]
  cases b with
  | succ b =>
    obtain ⟨s, hs⟩ := exists_nonesBehind_succ b
    rw [hs, ← List.append_assoc, ← List.append_assoc]
    exact generic?_concat_eq_none rfl (by decide) _
  | zero =>
    obtain ⟨a, rfl⟩ := Nat.exists_eq_succ_of_ne_zero (by omega : a ≠ 0)
    obtain ⟨s, hs⟩ := exists_nonesBefore_succ a
    have hbracket : '[' ∉ nonesBefore (a + 1) ++ (g.head home).text :=
      List.mem_append.not.2
        (not_or.2 ⟨(bracket_notMem_nones (a + 1)).1, (g.head home).bracket_notMem_text⟩)
    have hother : lastSegment (nonesBefore (a + 1) ++ (g.head home).text) ≠ name.toList :=
      fun hsegment => hname (hsegment ▸ hs ▸ bar_mem_lastSegment (hbare rfl) s)
    have hclosed := generic?_closed hbracket name (g.inside hint)
    rw [if_neg hother] at hclosed
    rw [nonesBehind, List.replicate_zero, List.flatMap_nil, List.append_nil, Generic.around,
      DottedName.applied, ← List.append_assoc, hclosed]

/-- Among bars, a generic type stands for what it wraps: either it is read off the whole, or all
bars are taken off before. Both ways come to the same hint. -/
theorem read_amongNone_around (h : IsArgument hint) (hnone : isNone hint = false) (g : Generic)
    (home : Home) (a b : Nat) : read (amongNone a (g.around home hint) b) = read hint := by
  have halone : read ([] ++ g.around home hint) = read hint :=
    g.read_append_around h hnone home List.not_mem_nil (.inl rfl)
      ((g.head home).trimmed_applied _)
  rw [List.nil_append] at halone
  by_cases hpos : 0 < a + b
  · by_cases hbare : b = 0 → home.qualifiers = []
    · have hnames : ∀ name ∈ ["Optional", "Annotated", "Union"], '|' ∉ name.toList := by decide
      rw [← halone]
      exact read_amongNone hpos (g.isMember_around h home) (g.isNone_around home hint)
        fun name hname => generic?_amongNone hpos hbare (hnames name hname)
    · obtain ⟨rfl, hqualified⟩ := Classical.not_imp.1 hbare
      have htrim := trimmed_joinBars (isMember_amongNone (g.isMember_around h home) a 0)
      rw [← amongNone] at htrim
      rw [amongNone_eq] at htrim ⊢
      rw [nonesBehind, List.replicate_zero, List.flatMap_nil, List.append_nil] at htrim ⊢
      exact g.read_append_around h hnone home (bracket_notMem_nones a).1 (.inr hqualified) htrim
  · obtain ⟨rfl, rfl⟩ : a = 0 ∧ b = 0 := by omega
    rw [amongNone_zero, halone]

/-- Wrappers around a hint without brackets leave what it stands for, also among bars. The induction
over the wrappers carries the numbers `a` and `b` of bars on both sides. -/
theorem read_amongNone_wrapAll (h : IsArgument hint) (hmember : IsMember hint)
    (hnone : isNone hint = false) (hbracket : '[' ∉ hint) (ws : List Wrapper) (a b : Nat) :
    read (amongNone a (wrapAll ws hint) b) = read hint := by
  induction ws generalizing a b with
  | nil =>
    show read (amongNone a hint b) = read hint
    by_cases hpos : 0 < a + b
    · refine read_amongNone hpos hmember hnone fun name _ => generic?_eq_none_of_notMem ?_
      rw [amongNone_eq, List.mem_append, List.mem_append]
      rintro (hmem | hmem | hmem)
      · exact (bracket_notMem_nones a).1 hmem
      · exact hbracket hmem
      · exact (bracket_notMem_nones b).2 hmem
    · obtain ⟨rfl, rfl⟩ : a = 0 ∧ b = 0 := by omega
      rw [amongNone_zero]
  | cons w ws ih =>
    have hinner := isArgument_wrapAll h hnone ws
    -- A bar moves into the numbers. Inside a generic type no bar has been met yet.
    cases w with
    | generic g home =>
      have halone := ih 0 0
      rw [amongNone_zero] at halone
      rw [← halone]
      exact read_amongNone_around hinner.1 hinner.2 g home a b
    | barNone =>
      rw [← ih a (b + 1)]
      exact congrArg read (joinBars_joinBars _ _ [noneName] _)
    | noneBar =>
      have hjoined := joinBars_joinBars (List.replicate a noneName) noneName [wrapAll ws hint]
        (List.replicate b noneName)
      rw [← ih (a + 1) b, amongNone, amongNone, List.replicate_succ', List.append_assoc]
      exact congrArg read hjoined

/-! ## Quoted names -/

section
variable {n : DottedName} {quote? : Option Char}

/-- A hint that may stand between a pair of quotes, as hints do that are resolved later. -/
def quotedBy (quote? : Option Char) (hint : List Char) : List Char :=
  quote?.toList ++ hint ++ quote?.toList

/-- The quotes around a hint are taken off, and the blanks inside of them. -/
theorem unquote_quoted {quote : Char} (hquote : isQuote quote = true) (s : List Char) :
    unquote (quote :: (s ++ [quote])) = trim s := by
  have hlast : (s ++ [quote]).getLast? = some quote := List.getLast?_concat
  rw [unquote, unquoteBy?, unquoteBy?, hlast, List.dropLast_concat]
  simp only [isQuote, Bool.or_eq_true, beq_iff_eq] at hquote
  rcases hquote with rfl | rfl <;> rfl

/-- Quotes are neither blanks nor characters of names, so none is trimmed away or read as part of a
name. -/
theorem isNameChar_of_isQuote {quote : Char} (h : isQuote quote = true) :
    isBlank quote = false ∧ isNameChar quote = false := by
  simp only [isQuote, Bool.or_eq_true, beq_iff_eq] at h
  rcases h with rfl | rfl <;> decide +kernel

/-- A hint in quotes is trimmed, as quotes are no blanks (`Trimmed`). -/
theorem trimmed_quoted {quote : Char} (hquote : isQuote quote = true) (s : List Char) :
    Trimmed (quote :: (s ++ [quote])) :=
  have hblank := (isNameChar_of_isQuote hquote).1
  Text.trimmed_between hblank hblank s

/-- A name in quotes is a string for the scanner (`QuotedString`). -/
theorem quotedString_text {quote : Char} (hquote : isQuote quote = true) (n : DottedName) :
    Source.QuotedString (quote :: (n.text ++ [quote])) := by
  have hbody : ∀ {s : List Char}, (∀ c ∈ s, isNameChar c = true) → Source.ShortBody quote s := by
    intro s hs
    induction s with
    | nil => exact .nil
    | cons c s ih =>
      obtain ⟨hc, hs⟩ := List.forall_mem_cons.1 hs
      have hplain := (Literal.isPlain_of_isNameChar hc).1
      exact .char (Text.ne_of_kind hquote (Source.ScanState.isQuote_of_isPlain hplain)).symm
        (Text.ne_of_kind hc (by decide)) (Literal.ne_newline_of_isNameChar hc) (ih hs)
  exact .short hquote (hbody n.wellFormed_text.2)

/-- What names, quoted or not, are as hints: arguments and members without brackets, and not the
type of no value. -/
theorem isArgument_quotedBy (hnone : isNone n.text = false)
    (hquote : ∀ quote ∈ quote?, isQuote quote = true) :
    IsArgument (quotedBy quote? n.text) ∧ IsMember (quotedBy quote? n.text)
      ∧ isNone (quotedBy quote? n.text) = false ∧ '[' ∉ quotedBy quote? n.text := by
  obtain ⟨hne, hname⟩ := n.wellFormed_text
  have hbracket := n.bracket_notMem_text
  cases quote? with
  | none =>
    rw [quotedBy, Option.toList_none, List.nil_append, List.append_nil]
    exact ⟨isArgument_text n, isMember_name hne hname, hnone, hbracket⟩
  | some quote =>
    have hquote := hquote quote rfl
    have hstring := quotedString_text hquote n
    have hother (c : Char) (hc : isQuote c = false) : quote ≠ c := Text.ne_of_kind hquote hc
    have hchar := (isNameChar_of_isQuote hquote).2
    have htrim := trimmed_quoted hquote n.text
    have hopen : '[' ∉ quote :: (n.text ++ [quote]) := by
      simp [hbracket, (hother '[' rfl).symm]
    exact ⟨⟨htrim, List.cons_ne_nil _ _, fun d => hstring.scans d⟩,
      ⟨htrim, List.cons_ne_nil _ _, hstring.scans 0⟩,
      isNone_eq_false List.mem_cons_self hchar, hopen⟩

/-- A name in quotes is read as the name, and so is one without. -/
theorem read_quotedBy (hquote : ∀ quote ∈ quote?, isQuote quote = true) (n : DottedName) :
    read (quotedBy quote? n.text) = read n.text := by
  have htrim : Trimmed n.text := Written.trimmed_text n.wellFormed_text
  cases quote? with
  | none => rw [quotedBy, Option.toList_none, List.nil_append, List.append_nil]
  | some quote =>
    have hquote := hquote quote rfl
    have hbare : unquote n.text = n.text := by
      obtain ⟨c, t, hc⟩ := List.exists_cons_of_ne_nil n.wellFormed_text.1
      have hplain := (Literal.isPlain_of_isNameChar
        (n.wellFormed_text.2 c (hc ▸ List.mem_cons_self))).1
      rw [hc, unquote_eq (Source.ScanState.isQuote_of_isPlain hplain)]
    have hhint : unquote (trim (quotedBy (some quote) n.text)) = unquote (trim n.text) := by
      show unquote (trim (quote :: (n.text ++ [quote]))) = unquote (trim n.text)
      rw [(trimmed_quoted hquote n.text).trim_eq, unquote_quoted hquote, htrim.trim_eq, hbare]
    rw [read_eq, read_eq, hhint]

/-- **Wrappers around a name do not change what it stands for**: the type of its last word, or a
type of its own (`DottedName.type`). The name itself must not be that of the type of no value, which
unions leave out. -/
theorem read_wrapAll (hnone : n.text ≠ "None".toList) (hnoneType : n.text ≠ "NoneType".toList)
    (hquote : quote? ∈ [none, some '"', some '\'']) (ws : List Wrapper) :
    read (wrapAll ws (quotedBy quote? n.text)) = read n.text ∧ read n.text = .ok n.type := by
  have hquote : ∀ quote ∈ quote?, isQuote quote = true := by
    rintro quote rfl
    simpa [isQuote] using hquote
  have hnone : isNone n.text = false := by
    rw [isNone, Bool.or_eq_false_iff, beq_eq_false_iff_ne, beq_eq_false_iff_ne]
    exact ⟨hnone, hnoneType⟩
  obtain ⟨hargument, hmember, hnone, hbracket⟩ := isArgument_quotedBy hnone hquote
  have hwrapped := read_amongNone_wrapAll hargument hmember hnone hbracket ws 0 0
  rw [amongNone_zero, read_quotedBy hquote n] at hwrapped
  exact ⟨hwrapped, n.read_text⟩

/-- Bars on both sides and three generic types, from all modules that name them. -/
def nestedWrappers : List Wrapper :=
  let metadata : DottedName := ⟨["units".toList], "km".toList, by decide +kernel⟩
  [.noneBar, .generic (.annotated metadata) .extensions, .generic .unionNone .bare, .barNone,
    .generic .optional .typing]

/-- The name of the integers with its module. -/
def builtinsInt : DottedName := ⟨["builtins".toList], "int".toList, by decide +kernel⟩

/-- Wrappers of all kinds around a quoted name leave it the name of the integers. -/
theorem read_nestedWrappers :
    wrapAll nestedWrappers (quotedBy (some '\'') builtinsInt.text)
        = ("None | typing_extensions.Annotated["
            ++ "Union[typing.Optional['builtins.int'] | None, None], units.km]").toList ∧
      read (wrapAll nestedWrappers (quotedBy (some '\'') builtinsInt.text)) = .ok .integer := by
  have hread : read (wrapAll nestedWrappers (quotedBy (some '\'') builtinsInt.text))
        = read builtinsInt.text ∧ read builtinsInt.text = .ok builtinsInt.type :=
    read_wrapAll (by decide) (by decide) (by decide) nestedWrappers
  refine ⟨by decide +kernel, ?_⟩
  rw [hread.1, hread.2]
  rfl

end

end WorkflowTemplates.TypeHint
