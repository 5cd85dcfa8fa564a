import WorkflowTemplates.Proofs.Source.Balanced
import WorkflowTemplates.Proofs.Source.Bars

/-!
# Unions of several types

A union of several types is a type of its own, unless it is misread (`read_unionText_iff`). Before
its bars are looked for, a union that ends with a bracket is taken for one generic type, from its
first bracket to the one at its end; and the name of the whole is read behind its last dot. So a
union is misread if its last member is a name of a type with its module, or if it ends with a
bracket and the name before its first one is that of a generic type that is taken off (`Misread`).
-/

namespace WorkflowTemplates.TypeHint

open Literal (isNameChar)
open Source (Balanced splitTop)
open Source.ScanState (Scans Visits isPlain scans_plain)
open Text (isBlank isBlankLine isWordChar trim)

/-! ## Pieces of trimmed texts -/

section
variable {sep : Char} {w a b : List Char}

/-- A text along which no separator stands (`Visits`) goes on with the last piece of the text before
it. -/
theorem exists_splitTop_append (hsep : isPlain sep = true) (a : List Char)
    (hb : Visits (fun d c => d = 0 → c ≠ sep) (Source.ScanState.start.run a) b) :
    ∃ init last, splitTop sep a = init ++ [last] ∧ splitTop sep (a ++ b) = init ++ [last ++ b] := by
  obtain ⟨init, last, hsplit, -, happend⟩ :=
    Source.exists_splitFrom_append hsep Source.quoted_start a
  refine ⟨init, last, hsplit, ?_⟩
  rw [splitTop, happend, Source.splitFrom_piece hb, List.modifyHead_cons]

/-- No separator is met in characters none of which is one, in code or not. -/
theorem visits_of_notMem (s : Source.ScanState) (h : sep ∉ w) :
    Visits (fun d c => d = 0 → c ≠ sep) s w := by
  induction w generalizing s with
  | nil => trivial
  | cons c w ih =>
    rw [List.mem_cons, not_or] at h
    exact ⟨fun _ _ => Ne.symm h.1, ih (s.next c) h.2⟩

/-- The trimmed pieces of a text do not change when the text is trimmed: blanks at its ends are
blanks at the ends of pieces. -/
theorem map_trim_splitTop_trim (hsep : isPlain sep = true) (hblank : isBlank sep = false)
    (text : List Char) : (splitTop sep (trim text)).map trim = (splitTop sep text).map trim := by
  have hnever {w : List Char} (hw : isBlankLine w = true) : sep ∉ w := fun hmem =>
    Bool.false_ne_true (hblank.symm.trans (List.all_eq_true.1 hw sep hmem))
  obtain ⟨v, hv, htext⟩ := Text.exists_eq_trimEnd_append text
  obtain ⟨w, hw, htrim⟩ := Text.exists_trimEnd_eq_append text
  obtain ⟨init, last, hinit, hbehind⟩ :=
    exists_splitTop_append hsep (w ++ trim text) (visits_of_notMem _ (hnever hv))
  have hfront : splitTop sep (w ++ trim text) = (splitTop sep (trim text)).modifyHead (w ++ ·) := by
    rw [splitTop, Source.splitFrom_append (visits_of_notMem _ (hnever hw)), Source.run_blank hw,
      splitTop]
  have hlast : trim (last ++ v) = trim last := by
    rw [← Text.trim_trimEnd, Text.trimEnd_append hv, Text.trim_trimEnd]
  have hmodify : ((splitTop sep (trim text)).modifyHead (w ++ ·)).map trim
      = (splitTop sep (trim text)).map trim := by
    cases splitTop sep (trim text) with
    | nil => rfl
    | cons first more =>
      rw [List.modifyHead_cons, List.map_cons, List.map_cons, Text.trim_append_left hw]
  rw [← hmodify, ← hfront, hinit]
  rw [← htrim] at hbehind
  rw [htext, hbehind, List.map_append, List.map_append, List.map_singleton, List.map_singleton,
    hlast]

end

/-! ## Members -/

/-- A member of unions: a name, or a generic type of a name with balanced arguments (`Balanced`). -/
inductive UnionMember
  | name (n : DottedName)
  | generic (n : DottedName) (args : List Char) (balanced : Balanced args)

namespace UnionMember

/-- The text of a member, as `DottedName` writes it. -/
def text : UnionMember → List Char
  | name n => n.text
  | generic n args _ => n.applied args

/-- Whether a member is a generic type, that is, ends with a bracket. -/
def isGeneric : UnionMember → Bool
  | name _ => false
  | generic .. => true

/-- A member scans as one token, if `p` holds of names, of the bracket and of what is inside. -/
theorem scans_text {p : Nat → Char → Prop} (hname : ∀ c, isNameChar c = true → p 0 c)
    (hopen : p 0 '[') (hinside : ∀ e c, 1 ≤ e → p e c) : ∀ m : UnionMember, Scans p 0 m.text
  | name n => scans_plain fun c hc =>
    have hc := n.wellFormed_text.2 c hc
    ⟨(Literal.isPlain_of_isNameChar hc).1, hname c hc⟩
  | generic n _ balanced => n.scans_applied (balanced.scans 1) hname hopen hinside

/-- The text of a member is one (`IsMember`): it is found again between bars. -/
theorem isMember : ∀ m : UnionMember, IsMember m.text
  | name n => isMember_name n.wellFormed_text.1 n.wellFormed_text.2
  | generic n _ balanced => isMember_applied n (balanced.scans 1)

end UnionMember

/-- The text of a union: its members with bars between them. -/
def unionText (ms : List UnionMember) : List Char :=
  joinBars (ms.map UnionMember.text)

/-- The parts of the arguments of a generic type that are not the type of no value (`isNone`),
trimmed. -/
def valuedParts (args : List Char) : List (List Char) :=
  ((splitTop ',' args).map trim).filter (!isNone ·)

/-- What stands between the first bracket of a union and the one at its end is taken for the
arguments of the generic type whose name stands before the first bracket. Given are that name, its
own arguments and the members behind it. From `Union` only one part with a value may be read, and
what stands behind its own arguments goes on with the last one of them. -/
inductive TakenOff (name : String) (args : List Char) (after : List UnionMember) : Prop
  | any : name ∈ ["Optional", "Annotated", "Literal"] → TakenOff name args after
  | lastUnion : name = "Union" → after = [] → (valuedParts args).length = 1 →
    TakenOff name args after
  | union : name = "Union" → after ≠ [] →
    (∀ part ∈ (splitTop ',' args).dropLast, isNone (trim part) = true) → TakenOff name args after

/-- A union whose first generic type stands behind names, and before any members (`after`). -/
def genericBehind (names : List DottedName) (n : DottedName) {args : List Char}
    (balanced : Balanced args) (after : List UnionMember) : List UnionMember :=
  names.map .name ++ .generic n args balanced :: after

/-- The unions that are not read as themselves. -/
inductive Misread : List UnionMember → Prop
  /-- The name of a type behind the last dot is that of the last member. -/
  | lastName {before : List UnionMember} {n : DottedName} : n.qualifiers ≠ [] →
    (basicType? (String.ofList n.last)).isSome = true → Misread (before ++ [.name n])
  /-- The first generic type is taken off, from its bracket up to the one at the end of the
  union. -/
  | firstGeneric {names : List DottedName} {n : DottedName} {args : List Char}
    {balanced : Balanced args} {after : List UnionMember} : names = [] ∨ n.qualifiers ≠ [] →
    (∀ m ∈ after.getLast?, m.isGeneric = true) → TakenOff (String.ofList n.last) args after →
    Misread (genericBehind names n balanced after)

/-! ## The text of a union -/

section
variable {ms : List UnionMember} {names : List DottedName} {n : DottedName} {args : List Char}
  {balanced : Balanced args} {after : List UnionMember}

/-- A union ends with its last member, behind a bar for each of the others. -/
theorem unionText_concat (before : List UnionMember) (m : UnionMember) :
    unionText (before ++ [m]) = (before.map UnionMember.text).flatMap (· ++ bar) ++ m.text := by
  rw [unionText, List.map_append, List.map_singleton, joinBars_append_cons, List.flatMap_nil,
    List.append_nil]

/-- The texts of members are members of unions, every one of them (`IsMember`). -/
theorem isMember_map_text (ms : List UnionMember) :
    ∀ m ∈ ms.map UnionMember.text, IsMember m := by
  intro m hm
  obtain ⟨m, -, rfl⟩ := List.mem_map.1 hm
  exact m.isMember

/-- The members of a union start with characters of names, so no quote starts one. -/
theorem exists_text_eq_cons (m : UnionMember) : ∃ c t, m.text = c :: t ∧ isNameChar c = true := by
  have hname (n : DottedName) : ∃ c t, n.text = c :: t ∧ isNameChar c = true := by
    obtain ⟨c, t, hc⟩ := List.exists_cons_of_ne_nil n.wellFormed_text.1
    exact ⟨c, t, hc, n.wellFormed_text.2 c (hc ▸ List.mem_cons_self)⟩
  cases m with
  | name n => exact hname n
  | generic n args _ =>
    obtain ⟨c, t, hc, hplain⟩ := hname n
    exact ⟨c, t ++ '[' :: (args ++ [']']), congrArg (· ++ _) hc, hplain⟩

/-- No blanks or quotes stand around a union, so nothing is taken off before it is read. -/
theorem unquote_trim_unionText (hne : ms ≠ []) : unquote (trim (unionText ms)) = unionText ms := by
  obtain ⟨m, rest, rfl⟩ := List.exists_cons_of_ne_nil hne
  obtain ⟨c, t, hm, hc⟩ := exists_text_eq_cons m
  have hquote := Source.ScanState.isQuote_of_isPlain (Literal.isPlain_of_isNameChar hc).1
  have htext : unionText (m :: rest)
      = c :: (t ++ (rest.map UnionMember.text).flatMap (bar ++ ·)) := by
    rw [unionText, List.map_cons, joinBars, hm, List.cons_append]
  have htrim : trim (unionText (m :: rest)) = unionText (m :: rest) :=
    (trimmed_joinBars (isMember_map_text (m :: rest))).trim_eq
  rw [htrim, htext, unquote_eq hquote]

/-- The text before the first bracket of a union, with the names before it and the bars between. -/
def headText (names : List DottedName) (n : DottedName) : List Char :=
  names.flatMap (·.text ++ bar) ++ n.text

/-- There is no bracket before the first one, as names have none. -/
theorem bracket_notMem_headText (names : List DottedName) (n : DottedName) :
    '[' ∉ headText names n := by
  refine List.mem_append.not.2 (not_or.2 ⟨fun hmem => ?_, n.bracket_notMem_text⟩)
  obtain ⟨m, -, hm⟩ := List.mem_flatMap.1 hmem
  rcases List.mem_append.1 hm with hm | hm
  · exact m.bracket_notMem_text hm
  · exact absurd hm (by decide)

/-- The name before the first bracket is that of the generic type, if nothing stands before it or it
has qualifiers: `lastSegment` goes back to the last dot. -/
theorem lastSegment_headText (h : names = [] ∨ n.qualifiers ≠ []) :
    lastSegment (headText names n) = n.last := by
  refine n.lastSegment_append_text (h.imp_left ?_)
  rintro rfl
  rfl

/-- The last segment before the first bracket holds a bar if names stand before a generic type
without qualifiers, so it is no name. -/
theorem bar_mem_lastSegment_headText (hnames : names ≠ []) (hq : n.qualifiers = []) :
    '|' ∈ lastSegment (headText names n) := by
  obtain ⟨init, m, rfl⟩ := (List.eq_nil_or_concat' names).resolve_left hnames
  rw [headText, List.flatMap_append, List.flatMap_singleton, ← List.append_assoc]
  exact bar_mem_lastSegment hq _

/-! ## The arguments that are read off a union -/

/-- Members in front of a text, each with a bar behind it, scan if the text does. -/
theorem scans_flatMap_bar {p : Nat → Char → Prop} {b : List Char} (hbar : ∀ c ∈ bar, p 0 c)
    (hms : ∀ m ∈ ms, Scans p 0 m.text) (hb : Scans p 0 b) :
    Scans p 0 (ms.flatMap (·.text ++ bar) ++ b) := by
  induction ms with
  | nil => exact hb
  | cons m ms ih =>
    obtain ⟨hm, hms⟩ := List.forall_mem_cons.1 hms
    have hrest : Scans p 0 ('|' :: ' ' :: (ms.flatMap (·.text ++ bar) ++ b)) :=
      .cons rfl (hbar _ (by decide)) (.cons rfl (hbar _ (by decide)) (ih hms))
    rw [List.flatMap_cons, List.append_assoc, List.append_assoc]
    exact hm.append_cons rfl (hbar ' ' (by decide)) hrest

/-- What stands behind the arguments of a generic type, up to the first bracket of a later one and
through its arguments, has no comma outside brackets. -/
theorem visits_behind (hargs : Balanced args) (before : List UnionMember) (k : DottedName)
    {args' : List Char} (hargs' : Balanced args') :
    Visits (fun d c => d = 0 → c ≠ ',') (Source.ScanState.start.run args)
      (']' :: (bar ++ (before.flatMap (·.text ++ bar) ++ k.text) ++ '[' :: args')) := by
  have hrests : (Source.ScanState.start.run args).Rests 0 := (hargs.scans 0).rests
  have hclosed : (Source.ScanState.start.run args).next ']' = .start := hrests.next_eq rfl
  have hmember (m : UnionMember) : Scans (fun d c => d = 0 → c ≠ ',') 0 m.text :=
    m.scans_text (fun _ hc _ => Text.ne_of_kind hc (by decide)) (fun _ => by decide)
      fun _ _ he hzero => by omega
  have hbar : ∀ c ∈ bar, isPlain c = true ∧ c ≠ ',' := Text.forall_mem_of_all (by decide)
  have hnames : Scans (fun d c => d = 0 → c ≠ ',') 0
      (bar ++ (before.flatMap (·.text ++ bar) ++ k.text)) :=
    .plain_append (fun c hc => ⟨(hbar c hc).1, fun _ => (hbar c hc).2⟩)
      (scans_flatMap_bar (fun c hc _ => (hbar c hc).2) (fun m _ => hmember m) (hmember (.name k)))
  refine ⟨fun _ _ => by decide, ?_⟩
  rw [hclosed]
  refine Source.ScanState.visits_append.2 ⟨hnames.visits, fun _ _ => by decide, ?_⟩
  have hopen : (Source.ScanState.start.run (bar ++ (before.flatMap (·.text ++ bar) ++ k.text))).next
      '[' = ⟨1, .code⟩ := hnames.rests.next_eq rfl
  rw [hopen]
  exact (hargs'.scans 1).visits.mono fun _ _ he hzero => by omega

/-- The parts with values of a text behind which another one without commas stands that is no type
of no value, as it has a bracket in it (`hbracket`): it belongs to the last part, which so has a
value. -/
theorem length_valuedParts_append {b : List Char} (hbracket : ']' ∈ b)
    (hb : Visits (fun d c => d = 0 → c ≠ ',') (Source.ScanState.start.run args) b) :
    (valuedParts (args ++ b)).length = 1
      ↔ ∀ part ∈ (splitTop ',' args).dropLast, isNone (trim part) = true := by
  have hcomma : isPlain ',' = true := rfl
  obtain ⟨init, last, hinit, happend⟩ := exists_splitTop_append hcomma args hb
  have hlast : isNone (trim (last ++ b)) = false :=
    isNone_eq_false (c := ']') (Text.mem_trim (List.mem_append_right _ hbracket) rfl)
      (by decide +kernel)
  rw [valuedParts, happend, hinit, List.dropLast_concat]
  simp [hlast]

/-- What stands between the first bracket of a union and the one at its end, whatever brackets close
and open in between. -/
def bracketText (args : List Char) (after : List UnionMember) : List Char :=
  (args ++ ']' :: (after.map UnionMember.text).flatMap (bar ++ ·)).dropLast

/-- If the generic type is the last member, what stands between the brackets are its own arguments.
-/
theorem bracketText_nil (args : List Char) : bracketText args [] = args :=
  List.dropLast_concat

/-- The members behind a generic type, if the last one is a generic type as well, with the arguments
of that one in the open. -/
theorem flatMap_text_concat (init : List UnionMember) (k : DottedName) {args' : List Char}
    (balanced' : Balanced args') :
    ((init ++ [UnionMember.generic k args' balanced']).map UnionMember.text).flatMap (bar ++ ·)
      = bar ++ (init.flatMap (·.text ++ bar) ++ k.text) ++ '[' :: args' ++ [']'] := by
  rw [flatMap_bar (by simp), List.map_append, List.map_singleton, joinBars_append_cons,
    List.flatMap_map, List.flatMap_nil, List.append_nil, UnionMember.text, DottedName.applied]
  simp only [List.append_assoc, List.cons_append]

/-- If members stand behind the generic type, the text between the brackets goes on up to the
arguments of the last one. -/
theorem bracketText_concat (args : List Char) (init : List UnionMember) (k : DottedName)
    {args' : List Char} (balanced' : Balanced args') :
    bracketText args (init ++ [.generic k args' balanced'])
      = args ++ ']' :: (bar ++ (init.flatMap (·.text ++ bar) ++ k.text) ++ '[' :: args') := by
  rw [bracketText, flatMap_text_concat, ← List.cons_append, ← List.append_assoc,
    List.dropLast_concat]

section
variable (hclosed : ∀ m ∈ after.getLast?, m.isGeneric = true)
include hclosed

/-- Behind the first generic type there is nothing, or the last member is one as well, if the union
ends with a bracket. -/
theorem eq_nil_or_exists_generic : after = [] ∨ ∃ init k args' balanced',
    after = init ++ [UnionMember.generic k args' balanced'] := by
  rcases List.eq_nil_or_concat' after with rfl | ⟨init, m, rfl⟩
  · exact .inl rfl
  · have hm := hclosed m (by rw [List.getLast?_concat]; rfl)
    cases m with
    | name k => cases hm
    | generic k args' balanced' => exact .inr ⟨init, k, args', balanced', rfl⟩

/-- A union that ends with a bracket is the text before its first bracket (`headText`) and the one
between the two (`bracketText`). -/
theorem unionText_genericBehind (names : List DottedName) (n : DottedName)
    (balanced : Balanced args) : unionText (genericBehind names n balanced after)
      = headText names n ++ '[' :: (bracketText args after ++ [']']) := by
  have hend : args ++ ']' :: (after.map UnionMember.text).flatMap (bar ++ ·)
      = bracketText args after ++ [']'] := by
    rcases eq_nil_or_exists_generic hclosed with rfl | ⟨init, k, args', balanced', rfl⟩
    · rw [bracketText_nil, List.map_nil, List.flatMap_nil]
    · rw [bracketText_concat, flatMap_text_concat, ← List.cons_append, ← List.append_assoc]
  rw [← hend, genericBehind, unionText, List.map_append, List.map_cons, joinBars_append_cons,
    List.map_map, List.flatMap_map, headText, UnionMember.text, DottedName.applied]
  simp only [List.append_assoc, List.cons_append, List.nil_append]
  rfl

/-- `Union` is taken off if one part with a value is read between the brackets, which `TakenOff`
says of the arguments. -/
theorem takenOff_union_iff (balanced : Balanced args) :
    TakenOff "Union" args after ↔ (valuedParts (bracketText args after)).length = 1 := by
  have hname : "Union" ∉ ["Optional", "Annotated", "Literal"] := by decide
  rcases eq_nil_or_exists_generic hclosed with rfl | ⟨init, k, args', balanced', rfl⟩
  · rw [bracketText_nil]
    refine ⟨fun h => ?_, .lastUnion rfl rfl⟩
    cases h with
    | any h => exact absurd h hname
    | lastUnion _ _ h => exact h
    | union _ hne _ => exact absurd rfl hne
  · rw [bracketText_concat, length_valuedParts_append List.mem_cons_self
      (visits_behind balanced init k balanced')]
    refine ⟨fun h => ?_, .union rfl (by simp)⟩
    cases h with
    | any h => exact absurd h hname
    | lastUnion _ hnil _ => simp at hnil
    | union _ _ h => exact h

/-- A union that ends with a bracket is of the generic type whose name stands before its first one,
and of no other. -/
theorem generic?_unionText (names : List DottedName) (n : DottedName) (balanced : Balanced args)
    (name : String) : generic? name (unionText (genericBehind names n balanced after))
      = if lastSegment (headText names n) = name.toList then some (trim (bracketText args after))
        else none := by
  rw [unionText_genericBehind hclosed]
  exact generic?_closed (bracket_notMem_headText names n) name _

/-- A union that ends with a bracket is of the generic type that stands before its first one, if
nothing stands before that or it has qualifiers (`hhead`). -/
theorem generic?_unionText_eq_some (balanced : Balanced args) {name : String}
    (hhead : names = [] ∨ n.qualifiers ≠ []) (hname : String.ofList n.last = name) :
    generic? name (unionText (genericBehind names n balanced after))
      = some (trim (bracketText args after)) := by
  rw [generic?_unionText hclosed, lastSegment_headText hhead, ← hname, String.toList_ofList,
    if_pos rfl]

/-- A union that ends with a bracket is of no generic type whose name does not stand before its
first one (`hname`). -/
theorem generic?_unionText_eq_none (balanced : Balanced args) {name : String}
    (hbar : '|' ∉ name.toList)
    (hname : names = [] ∨ n.qualifiers ≠ [] → String.ofList n.last ≠ name) :
    generic? name (unionText (genericBehind names n balanced after)) = none := by
  rw [generic?_unionText hclosed, if_neg]
  intro hsegment
  by_cases hhead : names = [] ∨ n.qualifiers ≠ []
  · rw [lastSegment_headText hhead] at hsegment
    exact hname hhead (by rw [hsegment, String.ofList_toList])
  · obtain ⟨hnames, hq⟩ := not_or.1 hhead
    exact hbar (hsegment ▸ bar_mem_lastSegment_headText hnames (not_not.1 hq))

end

/-! ## Reading a union -/

/-- A union that wraps another hint is not read as itself, because that hint is shorter than the
name of the custom type would be. -/
theorem read_unionText_ne (hne : ms ≠ []) {inner : List Char}
    (h : wrapped? (unionText ms) = some inner) :
    read (unionText ms) ≠ .ok (.custom (String.ofList (unionText ms))) := by
  intro hread
  have hlt := length_lt_of_wrapped? h
  have hwrapped : read (unionText ms) = read inner := by
    rw [read_eq, unquote_trim_unionText hne, h]
  have hle := length_le_of_read_custom (hwrapped ▸ hread)
  rw [String.length_ofList] at hle
  omega

/-- A union from which no generic type is taken off wraps no hint if two members have values, and
its own name is read. -/
theorem read_unionText (h : 2 ≤ (ms.filter (!isNone ·.text)).length)
    (hoptional : generic? "Optional" (unionText ms) = none)
    (hannotated : generic? "Annotated" (unionText ms) = none)
    (hunion : ∀ inside, generic? "Union" (unionText ms) = some inside →
      onlyMember? (splitTop ',' inside) = none) :
    read (unionText ms) = readUnwrapped (unionText ms) := by
  have hne : ms ≠ [] := by
    rintro rfl
    cases h
  have hlength : 2 ≤ (ms.map UnionMember.text).length := by
    rw [List.length_map]
    exact h.trans (List.length_filter_le _ _)
  have hvalued : 2 ≤ ((ms.map UnionMember.text).filter (!isNone ·)).length := by
    rw [List.filter_map, List.length_map]
    exact h
  have hwrapped := wrapped?_joinBars (isMember_map_text ms) hlength hoptional hannotated hunion
  rw [onlyMember?_joinBars_eq_none (isMember_map_text ms) hvalued] at hwrapped
  rw [read_eq, unquote_trim_unionText hne, unionText, hwrapped]

/-- A hint that wraps none (`wrapped?`) is of no generic type that is taken off. -/
theorem generic?_of_wrapped? {hint : List Char} (h : wrapped? hint = none) :
    generic? "Optional" hint = none ∧ generic? "Annotated" hint = none
      ∧ ∀ inside, generic? "Union" hint = some inside →
        onlyMember? (splitTop ',' inside) = none := by
  rw [wrapped?, Option.or_eq_none_iff, Option.or_eq_none_iff, Option.or_eq_none_iff] at h
  obtain ⟨hoptional, hannotated, hunion, -⟩ := h
  refine ⟨hoptional, ?_, fun inside hinside => ?_⟩
  · cases hinside : generic? "Annotated" hint with
    | none => rfl
    | some inside =>
      rw [hinside, Option.bind_some, List.head?_eq_none_iff] at hannotated
      exact absurd hannotated (Source.splitFrom_ne_nil _ _ _)
  · rwa [hinside, Option.bind_some] at hunion

/-- A hint is a custom type if its last segment holds a character that stands in no word, such as a
bar. -/
theorem ofName_eq_custom {hint : List Char} {c : Char} (h : c ∈ lastSegment hint)
    (hc : isWordChar c = false) : ofName hint = .custom (String.ofList hint) := by
  rw [ofName_eq]
  cases htype : basicType? (String.ofList (lastSegment hint)) with
  | none => rfl
  | some type =>
    have hword := isWordChar_of_basicType? htype c (by rwa [String.toList_ofList])
    rw [hc] at hword
    cases hword

/-- The arguments of `Union` have only one member with a value if one of their parts has one
(`valuedParts`). -/
theorem isSome_onlyMember?_iff (inside : List Char) :
    (onlyMember? (splitTop ',' (trim inside))).isSome = true ↔ (valuedParts inside).length = 1 := by
  rw [onlyMember?, map_trim_splitTop_trim rfl rfl, ← valuedParts, List.length_eq_one_iff]
  cases valuedParts inside with
  | nil => simp
  | cons first more => cases more <;> simp

/-! ## Unions that end with a name -/

section
variable {before : List UnionMember}

/-- A union that ends with a name is of no generic type: it does not end with a bracket. -/
theorem generic?_unionText_name (before : List UnionMember) (n : DottedName) (name : String) :
    generic? name (unionText (before ++ [.name n])) = none := by
  obtain ⟨t, c, hc⟩ := (List.eq_nil_or_concat' n.text).resolve_left n.wellFormed_text.1
  have hchar := n.wellFormed_text.2 c (hc ▸ List.mem_append_right t List.mem_cons_self)
  rw [unionText_concat, UnionMember.text, hc, ← List.append_assoc]
  exact generic?_concat_eq_none (isBlank_of_isNameChar hchar) (Text.ne_of_kind hchar (by decide)) _

/-- If the name at the end of a union has qualifiers, it decides which name the union is, since it
stands behind the last dot. -/
theorem ofName_unionText_name (hq : n.qualifiers ≠ []) :
    ofName (unionText (before ++ [.name n])) = (basicType? (String.ofList n.last)).getD
      (.custom (String.ofList (unionText (before ++ [.name n])))) := by
  have hsegment : lastSegment (unionText (before ++ [.name n])) = n.last := by
    rw [unionText_concat]
    exact n.lastSegment_append_text (.inr hq)
  rw [ofName_eq, hsegment]

/-- A union that ends with a name of a type and its module is not read as itself, but as that type.
-/
theorem read_unionText_ne_of_name (hq : n.qualifiers ≠ [])
    (hbasic : (basicType? (String.ofList n.last)).isSome = true) :
    read (unionText (before ++ [.name n]))
      ≠ .ok (.custom (String.ofList (unionText (before ++ [.name n])))) := by
  have hne : before ++ [.name n] ≠ [] := by simp
  obtain ⟨type, htype⟩ := Option.isSome_iff_exists.1 hbasic
  cases hwrapped : wrapped? (unionText (before ++ [.name n])) with
  | some inner => exact read_unionText_ne hne hwrapped
  | none =>
    rw [read_eq, unquote_trim_unionText hne, hwrapped]
    dsimp only
    rw [readUnwrapped, generic?_unionText_name, ofName_unionText_name hq, htype]
    exact fun heq => ne_custom_of_basicType? htype _ (Except.ok.inj heq)

/-- Any other union that ends with a name is read as itself, if two of its members have values. -/
theorem read_unionText_name
    (h : 2 ≤ ((before ++ [UnionMember.name n]).filter (!isNone ·.text)).length)
    (hname : n.qualifiers ≠ [] → basicType? (String.ofList n.last) = none) :
    read (unionText (before ++ [.name n]))
      = .ok (.custom (String.ofList (unionText (before ++ [.name n])))) := by
  have hgeneric := generic?_unionText_name before n
  have honly (inside : List Char)
      (hinside : generic? "Union" (unionText (before ++ [.name n])) = some inside) :
      onlyMember? (splitTop ',' inside) = none := nomatch (hgeneric _).symm.trans hinside
  rw [read_unionText h (hgeneric _) (hgeneric _) honly, readUnwrapped, hgeneric]
  refine congrArg Except.ok ?_
  by_cases hq : n.qualifiers = []
  · have hbefore : before ≠ [] := by
      rintro rfl
      exact Nat.not_succ_le_self 1 (h.trans (List.length_filter_le _ _))
    obtain ⟨init, m, rfl⟩ := (List.eq_nil_or_concat' before).resolve_left hbefore
    refine ofName_eq_custom (c := '|') ?_ rfl
    rw [unionText_concat, List.map_append, List.map_singleton, List.flatMap_append,
      List.flatMap_singleton, ← List.append_assoc]
    exact bar_mem_lastSegment hq _
  · rw [ofName_unionText_name hq, hname hq]
    rfl

end

/-! ## Unions that end with a generic type -/

section
variable (hclosed : ∀ m ∈ after.getLast?, m.isGeneric = true)
include hclosed

/-- A union from which its first generic type is taken off (`TakenOff`) is not read as itself. -/
theorem read_unionText_ne_of_generic (hhead : names = [] ∨ n.qualifiers ≠ [])
    (htaken : TakenOff (String.ofList n.last) args after) :
    read (unionText (genericBehind names n balanced after))
      ≠ .ok (.custom (String.ofList (unionText (genericBehind names n balanced after)))) := by
  have hne : genericBehind names n balanced after ≠ [] := by simp [genericBehind]
  have hgeneric {name : String} (hname : String.ofList n.last = name) :=
    generic?_unionText_eq_some hclosed balanced hhead hname
  cases hwrapped : wrapped? (unionText (genericBehind names n balanced after)) with
  | some inner => exact read_unionText_ne hne hwrapped
  | none =>
    obtain ⟨hoptional, hannotated, honly⟩ := generic?_of_wrapped? hwrapped
    have hunion (hname : String.ofList n.last = "Union") : False := by
      have hlength := (takenOff_union_iff hclosed balanced).1 (hname ▸ htaken)
      have hmember := (isSome_onlyMember?_iff _).2 hlength
      rw [honly _ (hgeneric hname)] at hmember
      cases hmember
    rw [read_eq, unquote_trim_unionText hne, hwrapped]
    cases htaken with
    | any hname =>
      simp only [List.mem_cons, List.not_mem_nil, or_false] at hname
      rcases hname with hname | hname | hname
      · cases hoptional.symm.trans (hgeneric hname)
      · cases hannotated.symm.trans (hgeneric hname)
      · dsimp only
        rw [readUnwrapped, hgeneric hname]
        exact readChoices_ne_custom _ _
    | lastUnion hname _ _ => exact (hunion hname).elim
    | union hname _ _ => exact (hunion hname).elim

/-- Any other union that ends with a generic type is read as itself, if two of its members have
values. -/
theorem read_unionText_generic
    (h : 2 ≤ ((genericBehind names n balanced after).filter (!isNone ·.text)).length)
    (htaken : names = [] ∨ n.qualifiers ≠ [] → ¬TakenOff (String.ofList n.last) args after) :
    read (unionText (genericBehind names n balanced after))
      = .ok (.custom (String.ofList (unionText (genericBehind names n balanced after)))) := by
  have hany (name : String) (hbar : '|' ∉ name.toList)
      (hname : name ∈ ["Optional", "Annotated", "Literal"]) :
      generic? name (unionText (genericBehind names n balanced after)) = none :=
    generic?_unionText_eq_none hclosed balanced hbar fun hhead hlast =>
      htaken hhead (.any (hlast ▸ hname))
  have honly (inside : List Char)
      (hinside : generic? "Union" (unionText (genericBehind names n balanced after))
        = some inside) : onlyMember? (splitTop ',' inside) = none := by
    by_cases hlast : names = [] ∨ n.qualifiers ≠ [] → String.ofList n.last ≠ "Union"
    · have hnone := generic?_unionText_eq_none hclosed balanced (by decide) hlast
      cases hnone.symm.trans hinside
    · obtain ⟨hhead, hlast⟩ := Classical.not_imp.1 hlast
      have hunion := htaken hhead
      rw [not_not.1 hlast, takenOff_union_iff hclosed balanced, ← isSome_onlyMember?_iff] at hunion
      cases (generic?_unionText_eq_some hclosed balanced hhead (not_not.1 hlast)).symm.trans hinside
      exact Option.not_isSome_iff_eq_none.1 hunion
  have hbracket : ']' ∈ lastSegment (unionText (genericBehind names n balanced after)) := by
    rw [unionText_genericBehind hclosed, ← List.cons_append, ← List.append_assoc]
    exact mem_lastSegment (by decide) List.mem_cons_self rfl _
  rw [read_unionText h (hany _ (by decide) (by decide)) (hany _ (by decide) (by decide)) honly,
    readUnwrapped, hany _ (by decide) (by decide)]
  exact congrArg Except.ok (ofName_eq_custom hbracket rfl)

end

/-! ## Several types -/

/-- A union with a generic type has a first one, behind names (`genericBehind`). -/
theorem exists_firstGeneric (h : ∃ m ∈ ms, m.isGeneric = true) :
    ∃ (names : List DottedName) (n : DottedName) (args : List Char) (balanced : Balanced args)
      (after : List UnionMember), ms = genericBehind names n balanced after := by
  induction ms with
  | nil => simp at h
  | cons m ms ih =>
    cases m with
    | generic n args balanced => exact ⟨[], n, args, balanced, ms, rfl⟩
    | name k =>
      obtain ⟨m, hm, hgeneric⟩ := h
      have hms := (List.mem_cons.1 hm).resolve_left (by rintro rfl; cases hgeneric)
      obtain ⟨names, n, args, balanced, after, rfl⟩ := ih ⟨m, hms, hgeneric⟩
      exact ⟨k :: names, n, args, balanced, after, rfl⟩

/-- **A misread union is not read as itself** (`Misread`), in neither of the two cases. -/
theorem Misread.read_ne (h : Misread ms) :
    read (unionText ms) ≠ .ok (.custom (String.ofList (unionText ms))) := by
  cases h with
  | lastName hq hbasic => exact read_unionText_ne_of_name hq hbasic
  | firstGeneric hhead hclosed htaken => exact read_unionText_ne_of_generic hclosed hhead htaken

/-- **A union of several types is read as itself, unless it is misread** (`Misread`). Several types
are two members at least that are not the type of no value. -/
theorem read_unionText_iff (h : 2 ≤ (ms.filter (!isNone ·.text)).length) :
    read (unionText ms) = .ok (.custom (String.ofList (unionText ms))) ↔ ¬Misread ms := by
  refine ⟨fun hread hmisread => hmisread.read_ne hread, fun hmisread => ?_⟩
  have hne : ms ≠ [] := by
    rintro rfl
    cases h
  obtain ⟨before, m, rfl⟩ := (List.eq_nil_or_concat' ms).resolve_left hne
  cases m with
  | name n =>
    refine read_unionText_name h fun hq => Option.not_isSome_iff_eq_none.1 fun hbasic => ?_
    exact hmisread (.lastName hq hbasic)
  | generic k args' balanced' =>
    have hgeneric : ∃ m ∈ before ++ [.generic k args' balanced'], m.isGeneric = true :=
      ⟨_, List.mem_append_right before List.mem_cons_self, rfl⟩
    obtain ⟨names, n, args, balanced, after, hms⟩ := exists_firstGeneric hgeneric
    have hclosed : ∀ m ∈ after.getLast?, m.isGeneric = true := by
      intro m hm
      obtain ⟨init, rfl⟩ := List.getLast?_eq_some_iff.1 hm
      have hlast := congrArg List.getLast? hms
      rw [genericBehind, ← List.cons_append, ← List.append_assoc, List.getLast?_concat,
        List.getLast?_concat] at hlast
      cases hlast
      rfl
    rw [hms] at h hmisread ⊢
    exact read_unionText_generic hclosed h fun hhead htaken =>
      hmisread (.firstGeneric hhead hclosed htaken)

/-- Two generic types and the type of no value, with a bar in a string among the arguments. -/
def collections : List UnionMember :=
  have hint : Balanced ("int".toList ++ []) :=
    .plain_append (Text.forall_mem_of_all (by decide)) .nil
  have hstring : Balanced ("str, ".toList ++ ("'|'".toList ++ [])) :=
    .plain_append (Text.forall_mem_of_all (by decide))
      (.string (.short rfl (.char (by decide) (by decide) (by decide) .nil)) nofun .nil)
  [.generic ⟨[], "List".toList, by decide +kernel⟩ _ hint,
    .generic ⟨[], "Dict".toList, by decide +kernel⟩ _ hstring,
    .name ⟨[], "None".toList, by decide +kernel⟩]

/-- Nothing is taken off a union of collections, so it is read as a type of its own. -/
theorem collections_not_misread :
    unionText collections = "List[int] | Dict[str, '|'] | None".toList ∧
      2 ≤ (collections.filter (!isNone ·.text)).length ∧ ¬Misread collections ∧
      read (unionText collections) = .ok (.custom "List[int] | Dict[str, '|'] | None") := by
  have hread : read (unionText collections)
      = .ok (.custom (String.ofList (unionText collections))) := by
    decide +kernel
  have hvalued : 2 ≤ (collections.filter (!isNone ·.text)).length := by decide +kernel
  exact ⟨by decide +kernel, hvalued, (read_unionText_iff hvalued).1 hread, by decide +kernel⟩

/-- A generic type that is taken off, and another one behind it, whose bracket ends the union. -/
def annotatedOrList : List UnionMember :=
  have hannotated : Balanced ("int, metres".toList ++ []) :=
    .plain_append (Text.forall_mem_of_all (by decide)) .nil
  have hlist : Balanced ("str".toList ++ []) :=
    .plain_append (Text.forall_mem_of_all (by decide)) .nil
  [.generic ⟨[], "Annotated".toList, by decide +kernel⟩ _ hannotated,
    .generic ⟨[], "List".toList, by decide +kernel⟩ _ hlist]

/-- A name, and behind it the name of the texts with its module, behind the last dot of the union.
-/
def bytesOrText : List UnionMember :=
  [.name ⟨[], "bytes".toList, by decide +kernel⟩,
    .name ⟨["builtins".toList], "str".toList, by decide +kernel⟩]

/-- Unions are narrowed to the first type between their brackets, and to the one behind their last
dot. -/
theorem unions_narrowed :
    (unionText annotatedOrList = "Annotated[int, metres] | List[str]".toList ∧
        2 ≤ (annotatedOrList.filter (!isNone ·.text)).length ∧
        read "Annotated[int, metres] | List[str]".toList = .ok .integer) ∧
      unionText bytesOrText = "bytes | builtins.str".toList ∧
        2 ≤ (bytesOrText.filter (!isNone ·.text)).length ∧
        read "bytes | builtins.str".toList = .ok .string := by
  decide +kernel

end

end WorkflowTemplates.TypeHint
