import Mathlib.Data.List.Forall2
import WorkflowTemplates.Proofs.Outcome

/-!
# Computations on the parts of a list

A computation that is carried out on the parts of a list, one after the other, gives a result
exactly if it does on every part (`mapM_eq_ok`). Otherwise it fails as it does on the first part on
which it fails (`FirstFails`, `mapM_eq_error`). A list of lists is gone through in the order of all
their parts (`mapM_mapM_eq_error`).
-/

namespace WorkflowTemplates

variable {ε α β : Type} {f : α → Except ε β} {xs ys : List α} {x : α} {e : ε}

/-- The first part of `xs` on which the computation `f` fails, fails with the error `e`. -/
def FirstFails (f : α → Except ε β) (xs : List α) (e : ε) : Prop :=
  ∃ before x after, xs = before ++ x :: after ∧ (∀ y ∈ before, ∃ b, f y = .ok b) ∧ f x = .error e

/-- Where there are no parts, `f` fails on none. -/
theorem not_firstFails_nil : ¬FirstFails f [] e := by
  rintro ⟨before, x, after, hxs, -⟩
  cases before <;> cases hxs

/-- The first part fails, or it does not and one of the others is the first that does
(`FirstFails`). -/
theorem firstFails_cons :
    FirstFails f (x :: xs) e ↔ f x = .error e ∨ (∃ b, f x = .ok b) ∧ FirstFails f xs e := by
  constructor
  · rintro ⟨before, y, after, hxs, hbefore, hy⟩
    cases before with
    | nil =>
      cases hxs
      exact .inl hy
    | cons z before =>
      cases hxs
      exact .inr ⟨hbefore x List.mem_cons_self, before, y, after, rfl,
        fun z hz => hbefore z (List.mem_cons_of_mem _ hz), hy⟩
  · rintro (hx | ⟨hx, before, y, after, rfl, hbefore, hy⟩)
    · exact ⟨[], x, xs, rfl, nofun, hx⟩
    · exact ⟨x :: before, y, after, rfl, List.forall_mem_cons.2 ⟨hx, hbefore⟩, hy⟩

/-- The parts of `xs` are gone through before those of `ys`. -/
theorem firstFails_append :
    FirstFails f (xs ++ ys) e
      ↔ FirstFails f xs e ∨ (∀ x ∈ xs, ∃ b, f x = .ok b) ∧ FirstFails f ys e := by
  induction xs with
  | nil => simp [not_firstFails_nil]
  | cons x xs ih =>
    rw [List.cons_append, firstFails_cons, firstFails_cons, ih, List.forall_mem_cons]
    tauto

/-- Some part is the first on which `f` fails, if it fails on any. -/
theorem exists_firstFails_iff :
    (∃ e, FirstFails f xs e) ↔ ∃ x ∈ xs, ∃ e, f x = .error e := by
  induction xs with
  | nil => simp [not_firstFails_nil]
  | cons x xs ih =>
    rw [List.exists_mem_cons_iff, ← ih]
    cases hx : f x <;> simp [firstFails_cons, hx]

/-- A computation gives a result on a list (`List.mapM`) exactly if it does on every part; the
results stand in the places of their parts. -/
theorem mapM_eq_ok {out : List β} :
    xs.mapM f = .ok out ↔ List.Forall₂ (fun x b => f x = .ok b) xs out := by
  induction xs generalizing out with
  | nil =>
    rw [List.mapM_nil, List.forall₂_nil_left_iff]
    exact ⟨fun h => (Except.ok.inj h).symm, fun h => h ▸ rfl⟩
  | cons x xs ih =>
    rw [List.mapM_cons, bind_eq_ok, List.forall₂_cons_left_iff]
    refine exists_congr fun b => ?_
    rw [bind_eq_ok, exists_and_left]
    refine and_congr_right fun _ => exists_congr fun bs => and_congr ih ?_
    exact ⟨fun h => (Except.ok.inj h).symm, fun h => h ▸ rfl⟩

/-- A computation fails on a list (`List.mapM`) as it does on the first part on which it fails. -/
theorem mapM_eq_error : xs.mapM f = .error e ↔ FirstFails f xs e := by
  induction xs with
  | nil =>
    rw [List.mapM_nil]
    exact ⟨nofun, fun h => absurd h not_firstFails_nil⟩
  | cons x xs ih =>
    rw [List.mapM_cons, bind_eq_error, firstFails_cons]
    refine or_congr_right ?_
    constructor
    · rintro ⟨b, hb, h⟩
      rw [bind_eq_error, ih] at h
      rcases h with h | ⟨_, _, h⟩
      · exact ⟨⟨b, hb⟩, h⟩
      · cases h
    · rintro ⟨⟨b, hb⟩, h⟩
      exact ⟨b, hb, bind_eq_error.2 (.inl (ih.2 h))⟩

/-- A computation gives some result on a list if it gives one on every part, and only then. -/
theorem exists_mapM_iff : (∃ out, xs.mapM f = .ok out) ↔ ∀ x ∈ xs, ∃ b, f x = .ok b := by
  simp only [exists_ok_iff, mapM_eq_error, exists_firstFails_iff]
  push Not
  rfl

/-- A computation on lists of parts goes through the parts in the order of the flattened list
(`FirstFails`). -/
theorem mapM_mapM_eq_error {xss : List (List α)} :
    xss.mapM (List.mapM f) = .error e ↔ FirstFails f xss.flatten e := by
  rw [mapM_eq_error]
  induction xss with
  | nil => exact ⟨fun h => absurd h not_firstFails_nil, fun h => absurd h not_firstFails_nil⟩
  | cons xs xss ih =>
    rw [firstFails_cons, List.flatten_cons, firstFails_append, mapM_eq_error, exists_mapM_iff, ih]

end WorkflowTemplates
