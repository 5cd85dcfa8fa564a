import WorkflowTemplates.Proofs.Source.DottedName

/-!
# Unions written with bars

Members with bars between them (`joinBars`) are found again between the bars, if no bar of their own
stands outside brackets and strings (`map_trim_splitTop_joinBars`). So such a union wraps its only
member beside the type of no value, if it has just one, and unless a generic type is read off it
(`wrapped?_joinBars`).
-/

namespace WorkflowTemplates.TypeHint

open Literal (isNameChar)
open Source (isQuote splitFrom splitTop)
open Source.ScanState (Scans scans_nil scans_plain)
open Text (Trimmed trim)

variable {m : List Char} {ms before after : List (List Char)}

/-! ## Quotes around hints -/

/-- A hint that ends with another character than a quote stands between no quotes, so `unquote`
leaves it. -/
theorem unquote_concat {c : Char} (hc : isQuote c = false) (s : List Char) :
    unquote (s ++ [c]) = s ++ [c] := by
  have hquote {quote : Char} (h : isQuote quote = true) : unquoteBy? quote (s ++ [c]) = none := by
    have hne : c ≠ quote := (Text.ne_of_kind h hc).symm
    cases s with
    | nil => rw [List.nil_append, unquoteBy?, if_neg fun h => hne h.1]
    | cons d s =>
      rw [List.cons_append, unquoteBy?, List.getLast?_concat,
        if_neg fun h => hne (Option.some.inj h.2)]
  rw [unquote, hquote rfl, hquote rfl]
  rfl

/-! ## Members -/

/-- A text is a member of unions: it neither is empty nor starts or ends with a blank, and no bar
stands in it outside brackets and strings. So it is found again between the bars of a union. -/
structure IsMember (m : List Char) : Prop where
  trimmed : Trimmed m
  ne_nil : m ≠ []
  scans : Scans (fun d c => d = 0 → c ≠ '|') 0 m

/-- A generic type is a member if its arguments stay inside their brackets (`Scans` at a depth of
one and more). -/
theorem isMember_applied (n : DottedName) {args : List Char}
    (h : Scans (fun e _ => 1 ≤ e) 1 args) : IsMember (n.applied args) where
  trimmed := n.trimmed_applied args
  ne_nil := fun hnil => n.wellFormed_text.1 (List.append_eq_nil_iff.1 hnil).1
  scans := n.scans_applied h (fun _ hc _ => Text.ne_of_kind hc (by decide)) (fun _ => by decide)
    fun _ _ he hzero => by omega

/-- A name is a member: it has no blanks, no bars and no quotes (`IsMember`). -/
theorem isMember_name (hm : m ≠ []) (h : ∀ c ∈ m, isNameChar c = true) : IsMember m where
  trimmed := Text.trimmed_of_forall fun c hc => isBlank_of_isNameChar (h c hc)
  ne_nil := hm
  scans := scans_plain fun c hc =>
    ⟨(Literal.isPlain_of_isNameChar (h c hc)).1, fun _ => Text.ne_of_kind (h c hc) (by decide)⟩

/-- A hint with a character that is no word character is not the type of no value, whose name is a
word. -/
theorem isNone_eq_false {c : Char} (hc : c ∈ m) (hname : isNameChar c = false) :
    isNone m = false := by
  have hnames : ∀ c ∈ "None".toList ++ "NoneType".toList, isNameChar c = true :=
    Text.forall_mem_of_all (by decide +kernel)
  rw [isNone, Bool.or_eq_false_iff, beq_eq_false_iff_ne, beq_eq_false_iff_ne]
  refine ⟨?_, ?_⟩
  · rintro rfl
    exact Text.ne_of_kind (hnames c (List.mem_append_left _ hc)) hname rfl
  · rintro rfl
    exact Text.ne_of_kind (hnames c (List.mem_append_right _ hc)) hname rfl

/-- Between two members there is a bar with blanks around it, as unions are usually written. -/
def bar : List Char := [' ', '|', ' ']

/-- Behind a bar, the last segment of a name without qualifiers starts before the bar: `lastSegment`
looks for dots only. -/
theorem bar_mem_lastSegment {n : DottedName} (h : n.qualifiers = []) (front : List Char) :
    '|' ∈ lastSegment (front ++ bar ++ n.text) := by
  have hdot : '.' ∉ bar ++ n.text := by
    rw [n.text_eq_last h]
    refine List.mem_append.not.2 (not_or.2 ⟨by decide, fun hmem => ?_⟩)
    exact Text.ne_of_kind (n.isWord_last.2 _ hmem) (by decide) rfl
  rw [List.append_assoc]
  exact mem_lastSegment hdot (List.mem_append_left _ (by decide)) rfl front

/-- Members with bars between them, the text of a union. -/
def joinBars : List (List Char) → List Char
  | [] => []
  | m :: rest => m ++ rest.flatMap (bar ++ ·)

/-- A member stands between what is before it and what is behind it, each with the bars on its side.
-/
theorem joinBars_append_cons (before : List (List Char)) (m : List Char)
    (after : List (List Char)) :
    joinBars (before ++ m :: after)
      = before.flatMap (· ++ bar) ++ (m ++ after.flatMap (bar ++ ·)) := by
  cases before with
  | nil => rfl
  | cons first before =>
    have hshift : before.flatMap (bar ++ ·) ++ bar = bar ++ before.flatMap (· ++ bar) := by
      induction before with
      | nil => simp
      | cons b before ih => simp [ih]
    simp [joinBars, List.flatMap_append, ← List.append_assoc, hshift]

/-- Two members and what is behind them, with the first bar in the open. -/
theorem joinBars_cons_cons (m second : List Char) (rest : List (List Char)) :
    joinBars (m :: second :: rest) = (m ++ [' ']) ++ '|' :: ' ' :: joinBars (second :: rest) := by
  simp [joinBars, bar]

/-- Members with a bar in front of each are a union behind a bar, if there is a member. -/
theorem flatMap_bar (hne : ms ≠ []) : ms.flatMap (bar ++ ·) = bar ++ joinBars ms := by
  obtain ⟨m, rest, rfl⟩ := List.exists_cons_of_ne_nil hne
  rw [List.flatMap_cons, joinBars, List.append_assoc]

/-- The members of a union are its pieces between bars, trimmed: `splitTop` cuts at each bar and
nowhere else. -/
theorem map_trim_splitTop_joinBars (hms : ∀ m ∈ ms, IsMember m) (hne : ms ≠ []) :
    (splitTop '|' (joinBars ms)).map trim = ms := by
  induction ms with
  | nil => exact absurd rfl hne
  | cons m rest ih =>
    have hm := hms m List.mem_cons_self
    cases rest with
    | nil =>
      have hpiece : splitTop '|' m = [m] := Source.splitFrom_piece hm.scans.visits
      rw [joinBars, List.flatMap_nil, List.append_nil, hpiece, List.map_singleton,
        hm.trimmed.trim_eq]
    | cons second rest =>
      have hblank : Scans (fun d c => d = 0 → c ≠ '|') 0 (m ++ [' ']) :=
        hm.scans.append_cons rfl (fun _ => by decide) scans_nil
      have hrest := ih (fun m hm => hms m (List.mem_cons_of_mem _ hm)) (List.cons_ne_nil _ _)
      have htail : (splitFrom '|' .start (' ' :: joinBars (second :: rest))).map trim
          = (splitTop '|' (joinBars (second :: rest))).map trim := by
        show ((splitTop '|' _).modifyHead (' ' :: ·)).map trim = _
        cases splitTop '|' (joinBars (second :: rest)) <;> rfl
      rw [joinBars_cons_cons, splitTop, Source.splitFrom_cons rfl hblank, List.map_cons,
        hm.trimmed.trim_append_blank hm.ne_nil, htail, hrest]

/-- A union wraps what only one of its members stands for (`onlyMember?`), unless a generic type is
read off it. -/
theorem wrapped?_joinBars (hms : ∀ m ∈ ms, IsMember m) (hlength : 2 ≤ ms.length)
    (hoptional : generic? "Optional" (joinBars ms) = none)
    (hannotated : generic? "Annotated" (joinBars ms) = none)
    (hunion : ∀ inside, generic? "Union" (joinBars ms) = some inside →
      onlyMember? (splitTop ',' inside) = none) :
    wrapped? (joinBars ms) = onlyMember? (splitTop '|' (joinBars ms)) := by
  have hne : ms ≠ [] := List.ne_nil_of_length_pos (by omega)
  obtain ⟨first, second, rest, hpieces⟩ : ∃ first second rest,
      splitTop '|' (joinBars ms) = first :: second :: rest := by
    have hlengths := congrArg List.length (map_trim_splitTop_joinBars hms hne)
    rw [List.length_map] at hlengths
    obtain ⟨first, behind, hfirst⟩ := List.exists_cons_of_length_pos (by omega :
      0 < (splitTop '|' (joinBars ms)).length)
    rw [hfirst, List.length_cons] at hlengths
    obtain ⟨second, rest, hsecond⟩ := List.exists_cons_of_length_pos (by omega : 0 < behind.length)
    exact ⟨first, second, rest, hsecond ▸ hfirst⟩
  have hunion : ((generic? "Union" (joinBars ms)).bind fun inside =>
      onlyMember? (splitTop ',' inside)) = none := Option.bind_eq_none_iff.2 hunion
  rw [wrapped?, hoptional, hannotated, hunion, hpieces]
  rfl

/-- A union with one member beside the type of no value (`isNone`) stands for that member. -/
theorem onlyMember?_joinBars (hms : ∀ m ∈ ms, IsMember m) (h : ms.filter (!isNone ·) = [m]) :
    onlyMember? (splitTop '|' (joinBars ms)) = some m := by
  have hne : ms ≠ [] := by
    rintro rfl
    cases h
  rw [onlyMember?, map_trim_splitTop_joinBars hms hne, h]

/-- A union with several members beside the type of no value (`isNone`) stands for none of them. -/
theorem onlyMember?_joinBars_eq_none (hms : ∀ m ∈ ms, IsMember m)
    (h : 2 ≤ (ms.filter (!isNone ·)).length) :
    onlyMember? (splitTop '|' (joinBars ms)) = none := by
  have hne : ms ≠ [] := by
    rintro rfl
    cases h
  rw [onlyMember?, map_trim_splitTop_joinBars hms hne]
  split
  · next hsingle =>
    rw [hsingle] at h
    cases Nat.not_succ_le_self 1 h
  · rfl

/-- A union of trimmed members is trimmed, so reading its hint does not change its text
(`IsMember`). -/
theorem trimmed_joinBars (hms : ∀ m ∈ ms, IsMember m) : Trimmed (joinBars ms) := by
  cases ms with
  | nil => exact Text.trimmed_of_forall nofun
  | cons m rest =>
    have hm := hms m List.mem_cons_self
    rcases List.eq_nil_or_concat' rest with rfl | ⟨init, last, rfl⟩
    · rw [joinBars, List.flatMap_nil, List.append_nil]
      exact hm.trimmed
    · have hlast := hms last (by simp)
      have haround := hm.trimmed.around hlast.trimmed hm.ne_nil hlast.ne_nil
        (init.flatMap (bar ++ ·) ++ bar)
      rw [joinBars, List.flatMap_append, List.flatMap_singleton]
      simpa [List.append_assoc] using haround

end WorkflowTemplates.TypeHint
