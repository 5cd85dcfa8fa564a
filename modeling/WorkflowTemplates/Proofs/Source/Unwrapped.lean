import WorkflowTemplates.Proofs.Source.Comment
import WorkflowTemplates.Source.TypeHint

/-!
# Hints inside hints

A hint is longer than the one that it wraps (`length_lt_of_wrapped?`). So the bound on the wrappers
does not show: a hint that wraps another one is read as that one, and any other hint as itself
(`read_eq`). The name of a custom type is no longer than the hint that it is read from
(`length_le_of_read_custom`).
-/

namespace WorkflowTemplates.TypeHint

open Source (ScanState splitFrom splitTop)
open Text (trim trimEnd trimStart)

variable {hint inner text : List Char} {name : String} {sep : Char} {s : ScanState}

/-! ## What is taken off a hint -/

/-- No text gets longer by trimming, on either side. -/
theorem length_trim_le (text : List Char) : (trim text).length ≤ text.length := by
  obtain ⟨w, -, hw⟩ := Text.exists_eq_append_trimStart text
  obtain ⟨w', -, hw'⟩ := Text.exists_eq_trimEnd_append (trimStart text)
  have hlength := congrArg List.length hw
  have hlength' := congrArg List.length hw'
  rw [List.length_append] at hlength hlength'
  rw [trim]
  omega

/-- No hint gets longer without its quotes (`unquote`). -/
theorem length_unquote_le (hint : List Char) : (unquote hint).length ≤ hint.length := by
  have hone {quote : Char} {inside : List Char} (h : unquoteBy? quote hint = some inside) :
      inside.length ≤ hint.length := by
    cases hint with
    | nil => cases h
    | cons c t =>
      rw [unquoteBy?] at h
      split at h
      · cases h
        have htrim := length_trim_le t.dropLast
        rw [List.length_dropLast] at htrim
        rw [List.length_cons]
        omega
      · cases h
  rw [unquote]
  cases hdouble : unquoteBy? '"' hint with
  | some inside => exact hone hdouble
  | none =>
    cases hsingle : unquoteBy? '\'' hint with
    | some inside => exact hone hsingle
    | none => exact Nat.le_refl _

/-- What stands between the brackets of a hint is shorter than the hint, as the brackets are
missing. -/
theorem length_lt_of_generic? (h : generic? name hint = some inner) :
    inner.length < hint.length := by
  have hdrop := (List.dropWhile_sublist (· != '[') (l := hint)).length_le
  unfold generic? at h
  split at h
  · cases h
  · next c inside hinside =>
    dsimp only at h
    split at h
    · cases h
      obtain ⟨w, -, hw⟩ := Text.exists_eq_trimEnd_append inside
      have hlength := congrArg List.length hw
      have htrim := length_trim_le (trimEnd inside).dropLast
      rw [List.length_append] at hlength
      rw [List.length_dropLast] at htrim
      rw [hinside, List.length_cons] at hdrop
      omega
    · cases h

/-- A text is longer than each of its pieces by at least the separators, one less than there are
pieces. -/
theorem length_le_of_mem_splitFrom {piece : List Char} (h : piece ∈ splitFrom sep s text) :
    piece.length + (splitFrom sep s text).length ≤ text.length + 1 := by
  induction text generalizing s piece with
  | nil =>
    rw [splitFrom, List.mem_singleton] at h
    subst h
    exact Nat.le_refl _
  | cons c text ih =>
    rw [splitFrom] at h ⊢
    split at h
    -- At a separator an empty piece is added in front, and the separator itself pays for it.
    · obtain ⟨first, more, hpieces⟩ :=
        List.exists_cons_of_ne_nil (Source.splitFrom_ne_nil sep (s.next c) text)
      have hfirst := ih (s := s.next c) (hpieces ▸ List.mem_cons_self)
      rw [if_pos ‹_›, List.length_cons, List.length_cons]
      rcases List.mem_cons.1 h with rfl | h
      · rw [List.length_nil]
        omega
      · have hpiece := ih h
        omega
    · rw [if_neg ‹_›, List.length_modifyHead, List.length_cons]
      cases hpieces : splitFrom sep (s.next c) text with
      | nil => exact absurd hpieces (Source.splitFrom_ne_nil _ _ _)
      | cons first more =>
        rw [hpieces, List.modifyHead_cons] at h
        have hpiece (p : List Char) (hp : p ∈ first :: more) :=
          ih (s := s.next c) (hpieces ▸ hp)
        rw [hpieces] at hpiece
        rcases List.mem_cons.1 h with rfl | h
        · have hfirst := hpiece first List.mem_cons_self
          rw [List.length_cons]
          omega
        · have hmore := hpiece piece (List.mem_cons_of_mem _ h)
          omega

/-- The only member of a union beside the type of no value is one of its members, trimmed. -/
theorem exists_of_onlyMember? {members : List (List Char)} (h : onlyMember? members = some inner) :
    ∃ m ∈ members, trim m = inner := by
  unfold onlyMember? at h
  split at h
  · next honly =>
    cases h
    have hmem : inner ∈ (members.map trim).filter (!isNone ·) :=
      honly ▸ List.mem_singleton_self inner
    exact List.mem_map.1 (List.mem_filter.1 hmem).1
  · cases h

/-- A hint is longer than the one that it wraps, which is what ends the recursion. -/
theorem length_lt_of_wrapped? (h : wrapped? hint = some inner) : inner.length < hint.length := by
  have hpiece {inside piece : List Char} (hm : piece ∈ splitTop ',' inside) :
      piece.length ≤ inside.length := by
    have hle := length_le_of_mem_splitFrom hm
    have hpos := List.length_pos_of_mem hm
    rw [splitTop] at hpos
    omega
  simp only [wrapped?, Option.or_eq_some_iff, Option.bind_eq_some_iff] at h
  rcases h with h | ⟨-, ⟨inside, hinside, h⟩ | ⟨-, ⟨inside, hinside, h⟩ | ⟨-, h⟩⟩⟩
  · exact length_lt_of_generic? h
  · exact (hpiece (List.mem_of_mem_head? h)).trans_lt (length_lt_of_generic? hinside)
  · obtain ⟨m, hm, rfl⟩ := exists_of_onlyMember? h
    exact ((length_trim_le m).trans (hpiece hm)).trans_lt (length_lt_of_generic? hinside)
  · split at h
    · next first second more hpieces =>
      obtain ⟨m, hm, rfl⟩ := exists_of_onlyMember? h
      have hle := length_le_of_mem_splitFrom hm
      have htrim := length_trim_le m
      rw [← splitTop, hpieces, List.length_cons, List.length_cons] at hle
      omega
    · cases h

/-! ## Reading without a bound -/

/-- The hint that is left when the blanks and the quotes around it are taken off is no longer than
the text. -/
theorem length_hint_le (text : List Char) : (unquote (trim text)).length ≤ text.length :=
  (length_unquote_le _).trans (length_trim_le text)

/-- Bounds that are at least the length of a hint do not show, by induction over the bound: each
wrapper makes the hint shorter. -/
theorem readWithin_congr {bound bound' : Nat} (h : text.length ≤ bound)
    (h' : text.length ≤ bound') : readWithin bound text = readWithin bound' text := by
  induction bound generalizing bound' text with
  | zero =>
    obtain rfl := List.length_eq_zero_iff.1 (Nat.le_zero.1 h)
    cases bound' <;> rfl
  | succ bound ih =>
    cases bound' with
    | zero =>
      obtain rfl := List.length_eq_zero_iff.1 (Nat.le_zero.1 h')
      rfl
    | succ bound' =>
      rw [readWithin, readWithin]
      split
      · next inner hinner =>
        have hlt := (length_lt_of_wrapped? hinner).trans_le (length_hint_le text)
        exact ih (by omega) (by omega)
      · rfl

/-- **A hint that wraps another one is read as that one**, and any other hint as itself: the
equation of `read` without its bound. -/
theorem read_eq (text : List Char) :
    read text = match wrapped? (unquote (trim text)) with
      | some inner => read inner
      | none => readUnwrapped (unquote (trim text)) := by
  have hbound : read text = readWithin (text.length + 1) text :=
    readWithin_congr (Nat.le_refl _) (Nat.le_succ _)
  rw [hbound, readWithin]
  cases hinner : wrapped? (unquote (trim text)) with
  | none => rfl
  | some inner =>
    have hlt := (length_lt_of_wrapped? hinner).trans_le (length_hint_le text)
    exact readWithin_congr hlt.le (Nat.le_refl _)

/-- A closed set is no custom type, whatever stands `inside` its brackets. -/
theorem readChoices_ne_custom (inside : List Char) (custom : String) :
    readChoices inside ≠ .ok (.custom custom) := by
  intro h
  unfold readChoices at h
  split at h
  · cases h
  · next items _ =>
    cases hitems : choices items <;> rw [hitems] at h <;> cases h
  · cases h

/-- A custom type has the whole hint as its name (`ofName`). -/
theorem eq_of_readUnwrapped_custom {custom : String}
    (h : readUnwrapped hint = .ok (.custom custom)) : custom = String.ofList hint := by
  unfold readUnwrapped at h
  split at h
  · exact absurd h (readChoices_ne_custom _ _)
  · unfold ofName at h
    split at h <;> cases h
    rfl

/-- The name of a custom type is no longer than the hint that it is read from, as wrappers are only
taken off. -/
theorem length_le_of_read_custom {custom : String} (h : read text = .ok (.custom custom)) :
    custom.length ≤ text.length := by
  induction hn : text.length using Nat.strong_induction_on generalizing text with
  | _ n ih =>
    subst hn
    have hhint := length_hint_le text
    rw [read_eq] at h
    split at h
    · next inner hinner =>
      have hlt := (length_lt_of_wrapped? hinner).trans_le hhint
      exact (ih _ hlt h rfl).trans hlt.le
    · rw [eq_of_readUnwrapped_custom h, String.length_ofList]
      exact hhint

end WorkflowTemplates.TypeHint
