import WorkflowTemplates.Proofs.Text.Runs
import WorkflowTemplates.Text.Lines

/-!
# Trimmed texts

A text that neither starts nor ends with a blank character (`Trimmed`) is left as it is by trimming,
and trimming finds it between blanks.
-/

namespace WorkflowTemplates.Text

variable {s t : List Char}

/-- The text `s` neither starts nor ends with a blank character; the end is said by the reversed
text. -/
structure Trimmed (s : List Char) : Prop where
  start : Stops isBlank s
  stop : Stops isBlank s.reverse

/-- A text without blanks is trimmed, the empty one too (`Trimmed`). -/
theorem trimmed_of_forall (h : ∀ c ∈ s, isBlank c = false) : Trimmed s where
  start := List.append_nil s ▸ (stops_nil isBlank).append h
  stop := List.append_nil s.reverse ▸
    (stops_nil isBlank).append fun c hc => h c (List.mem_reverse.1 hc)

/-- A text of word characters is trimmed (`isBlank_of_isWordChar`). -/
theorem trimmed_word (h : ∀ c ∈ s, isWordChar c = true) : Trimmed s := by
  refine trimmed_of_forall ?_
  intro c hc
  exact isBlank_of_isWordChar (h c hc)

/-- A text between two characters that are not blank is trimmed, whatever stands between them
(`Trimmed`). -/
theorem trimmed_between {c d : Char} (hc : isBlank c = false) (hd : isBlank d = false)
    (s : List Char) : Trimmed (c :: s ++ [d]) where
  start := stops_cons hc (s ++ [d])
  stop := by
    rw [List.reverse_append, List.reverse_singleton, List.singleton_append]
    exact stops_cons hd (c :: s).reverse

/-- A text is `Trimmed` if its first and its last character are not blank, as can be decided. -/
theorem trimmed_of_ends (h : s.head?.all (!isBlank ·) = true)
    (h' : s.getLast?.all (!isBlank ·) = true) : Trimmed s where
  start := by
    rintro c t rfl
    simpa using h
  stop := by
    intro c t hc
    rw [List.getLast?_eq_head?_reverse, hc] at h'
    simpa using h'

/-- Whatever stands between two trimmed texts that are not empty, the whole is trimmed (`Trimmed`).
-/
theorem Trimmed.around (hs : Trimmed s) (ht : Trimmed t) (hs' : s ≠ []) (ht' : t ≠ [])
    (middle : List Char) : Trimmed (s ++ middle ++ t) where
  start := by
    obtain ⟨c, u, rfl⟩ := List.exists_cons_of_ne_nil hs'
    exact stops_cons (hs.start c u rfl) (u ++ middle ++ t)
  stop := by
    obtain ⟨c, u, hu⟩ := List.exists_cons_of_ne_nil (List.reverse_ne_nil_iff.2 ht')
    rw [List.reverse_append, hu]
    exact stops_cons (ht.stop c u hu) (u ++ (s ++ middle).reverse)

/-- A trimmed text ends with no blank that `trimEnd` would take away. -/
theorem Trimmed.trimEnd_eq (h : Trimmed s) : trimEnd s = s := by
  rw [trimEnd, h.stop.dropWhile, List.reverse_reverse]

/-- A trimmed text is left as it is by `trim`. -/
theorem Trimmed.trim_eq (h : Trimmed s) : trim s = s := by
  rw [trim, trimStart, h.start.dropWhile, h.trimEnd_eq]

/-- A line that ends with a trimmed text `s` has no carriage return at its end (`dropReturn`), since
that is a blank. -/
theorem Trimmed.dropReturn_append (h : Trimmed s) (hs : s ≠ []) (t : List Char) :
    dropReturn (t ++ s) = t ++ s := by
  obtain ⟨c, u, hu⟩ := List.exists_cons_of_ne_nil (List.reverse_ne_nil_iff.2 hs)
  have hblank : isBlank c = false := h.stop c u hu
  have hlast : s = u.reverse ++ [c] := by
    rw [← List.reverse_reverse s, hu, List.reverse_cons]
  have hreturn : ¬(t ++ s).getLast? = some '\r' := by
    rw [hlast, ← List.append_assoc, List.getLast?_concat, Option.some.injEq]
    rintro rfl
    cases hblank
  rw [dropReturn, if_neg hreturn]

/-- A space in front of a text is trimmed away. -/
theorem trim_blank_cons (s : List Char) : trim (' ' :: s) = trim s := rfl

/-- A space behind a trimmed text is trimmed away, and nothing else (`Trimmed`). -/
theorem Trimmed.trim_append_blank (h : Trimmed s) (hs : s ≠ []) : trim (s ++ [' ']) = s := by
  obtain ⟨c, u, rfl⟩ := List.exists_cons_of_ne_nil hs
  have hstart : trimStart (c :: u ++ [' ']) = c :: u ++ [' '] :=
    (stops_cons (h.start c u rfl) (u ++ [' '])).dropWhile
  rw [trim, hstart, trimEnd, List.reverse_append, List.reverse_singleton, List.singleton_append,
    List.dropWhile_cons_of_pos rfl, h.stop.dropWhile, List.reverse_reverse]

end WorkflowTemplates.Text
