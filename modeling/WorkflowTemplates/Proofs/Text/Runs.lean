import Mathlib.Tactic.IntervalCases
import WorkflowTemplates.Text.Blank
import WorkflowTemplates.Text.Letter

/-!
# Kinds and runs of characters

A character of a kind is none that is not of the kind (`ne_of_kind`). A reader that takes the
longest run of characters of a kind takes exactly a given run off the front of a text if the text
behind the run does not go on with such a character (`Stops`).

Blanks and word characters are two such kinds, and no character is of both
(`isBlank_of_isWordChar`): the blanks are few enough to be listed.
-/

namespace WorkflowTemplates.Text

variable {p : Char → Bool} {s rest : List Char}

/-- A character `c` of the kind `p` is none that is not of the kind. -/
theorem ne_of_kind {c d : Char} (hc : p c = true) (hd : p d = false) : c ≠ d := by
  rintro rfl
  rw [hc] at hd
  cases hd

/-- What holds of the listed characters is decided one by one, by the kernel for a closed list. -/
theorem forall_mem_of_all {P : Char → Prop} [DecidablePred P]
    (h : (s.all fun c => decide (P c)) = true) : ∀ c ∈ s, P c := fun c hc =>
  of_decide_eq_true (List.all_eq_true.1 h c hc)

/-- The text `rest` does not start with a character of the kind `p`, so that a run of such
characters ends before it. -/
def Stops (p : Char → Bool) (rest : List Char) : Prop :=
  ∀ c t, rest = c :: t → p c = false

/-- The empty text stops every run of characters (`Stops`). -/
theorem stops_nil (p : Char → Bool) : Stops p [] := fun _ _ h => nomatch h

/-- Whether a text stops a run is decided by its first character (`Stops`). -/
theorem stops_cons {c : Char} (h : p c = false) (t : List Char) : Stops p (c :: t) := by
  rintro _ _ ⟨⟩
  exact h

/-- A text stops a run if characters that are not of the kind stand in front of it (`Stops`). -/
theorem Stops.append (h : Stops p rest) (hs : ∀ c ∈ s, p c = false) : Stops p (s ++ rest) := by
  cases s with
  | nil => exact h
  | cons c s => exact stops_cons (hs c List.mem_cons_self) (s ++ rest)

/-- A text that stops runs of the kind has no run at its front (`List.takeWhile`). -/
theorem Stops.takeWhile (h : Stops p rest) : rest.takeWhile p = [] := by
  cases rest with
  | nil => rfl
  | cons c t => rw [List.takeWhile_cons_of_neg (by rw [h c t rfl]; exact Bool.false_ne_true)]

/-- A text that stops runs of the kind is left as it is (`List.dropWhile`). -/
theorem Stops.dropWhile (h : Stops p rest) : rest.dropWhile p = rest := by
  cases rest with
  | nil => rfl
  | cons c t => rw [List.dropWhile_cons_of_neg (by rw [h c t rfl]; exact Bool.false_ne_true)]

/-- A run at the front of `s` ends before `rest` at the latest. -/
theorem Stops.takeWhile_append (h : Stops p rest) (s : List Char) :
    (s ++ rest).takeWhile p = s.takeWhile p := by
  rw [List.takeWhile_append, h.takeWhile, List.append_nil]
  split
  · next hl => exact ((List.takeWhile_prefix p).eq_of_length hl).symm
  · rfl

/-- What is behind a run of `s` stays in front of `rest`, which does not go on with the run. -/
theorem Stops.dropWhile_append (h : Stops p rest) (s : List Char) :
    (s ++ rest).dropWhile p = s.dropWhile p ++ rest := by
  rw [List.dropWhile_append]
  split
  · next he => rw [h.dropWhile, List.isEmpty_iff.1 he, List.nil_append]
  · rfl

/-- A text `s` of characters of the kind is the whole run in front of `rest`. -/
theorem Stops.takeWhile_run (h : Stops p rest) (hs : ∀ c ∈ s, p c = true) :
    (s ++ rest).takeWhile p = s := by
  rw [List.takeWhile_append_of_pos hs, h.takeWhile, List.append_nil]

/-- Behind a text `s` of characters of the kind, `rest` is left. -/
theorem Stops.dropWhile_run (h : Stops p rest) (hs : ∀ c ∈ s, p c = true) :
    (s ++ rest).dropWhile p = rest := by
  rw [List.dropWhile_append_of_pos hs, h.dropWhile]

/-! ## Blanks and word characters -/

/-- The characters with the Unicode property `White_Space`, one by one. -/
def blanks : List Char := [
  '\t', '\n', '\x0b', '\x0c', '\r', ' ', '\u0085', '\u00a0', '\u1680', '\u2000', '\u2001', '\u2002',
  '\u2003', '\u2004', '\u2005', '\u2006', '\u2007', '\u2008', '\u2009', '\u200a', '\u2028',
  '\u2029', '\u202f', '\u205f', '\u3000']

/-- Every blank character (`isBlank`) is among the listed ones; the ranges are gone through code
point by code point. -/
theorem mem_blanks {c : Char} (h : isBlank c = true) : c ∈ blanks := by
  have hcode : c = Char.ofNat c.toNat := (Char.ofNat_toNat c).symm
  simp only [isBlank, Bool.or_eq_true, beq_iff_eq, Bool.and_eq_true, decide_eq_true_eq] at h
  rcases h with (((((((((rfl | ⟨hl, hu⟩) | rfl) | rfl) | rfl) | ⟨hl, hu⟩) | rfl) | rfl) | rfl)
    | rfl) | rfl
  case inl.inl.inl.inl.inl.inl.inl.inl.inl.inr =>
    have hl : 9 ≤ c.toNat := hl
    have hu : c.toNat ≤ 13 := hu
    interval_cases c.toNat <;> rw [hcode] <;> decide
  case inl.inl.inl.inl.inl.inr =>
    have hl : 0x2000 ≤ c.toNat := hl
    have hu : c.toNat ≤ 0x200a := hu
    interval_cases c.toNat <;> rw [hcode] <;> decide
  all_goals decide

/-- None of the listed blank characters is a word character (`isWordChar`). -/
theorem isWordChar_of_mem_blanks : ∀ c ∈ blanks, isWordChar c = false :=
  forall_mem_of_all (by decide +kernel)

/-- No word character (`isWordChar`) is blank (`isBlank`). -/
theorem isBlank_of_isWordChar {c : Char} (h : isWordChar c = true) : isBlank c = false := by
  cases hb : isBlank c with
  | false => rfl
  | true =>
    rw [isWordChar_of_mem_blanks c (mem_blanks hb)] at h
    cases h

/-- A word has no line feed, so it stays on its line. -/
theorem newline_notMem_word {w : List Char} (h : ∀ c ∈ w, isWordChar c = true) : '\n' ∉ w := by
  intro hc
  exact ne_of_kind (h _ hc) rfl rfl

end WorkflowTemplates.Text
