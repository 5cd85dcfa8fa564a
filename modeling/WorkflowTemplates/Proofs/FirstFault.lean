import Mathlib.Data.Fin.Basic
import WorkflowTemplates.Proofs.Outcome

/-!
# First faults

Parts with names are checked one after the other, and what is wrong with a part may depend on the
names of the parts before it, as that a name is taken (`FaultAt`). A check that remembers the names
that it has passed and stops at the first fault (`StopsAtFault`) fails for the fault of the first
place that has one (`StopsAtFault.eq_error_iff`).
-/

namespace WorkflowTemplates

variable {α β ε : Type} {name : α → String} {fault : List String → α → ε → Prop} {x : α}
  {xs : List α} {e : ε}

/-- The part in the place `i` of `xs` has the fault `e`, behind the names of the parts before it. -/
def FaultAt (name : α → String) (fault : List String → α → ε → Prop) (xs : List α)
    (i : Fin xs.length) (e : ε) : Prop :=
  fault ((xs.take i).map name) xs[i] e

/-- The fault `e` of the first part of `xs` that has one (`FaultAt`). -/
def FirstFault (name : α → String) (fault : List String → α → ε → Prop) (xs : List α) (e : ε) :
    Prop :=
  ∃ i, FaultAt name fault xs i e ∧ ∀ j < i, ∀ e', ¬FaultAt name fault xs j e'

/-- There is no first fault where there are no parts (`FirstFault`). -/
theorem not_firstFault_nil : ¬FirstFault name fault [] e :=
  fun ⟨i, _⟩ => i.elim0

/-- The first part has a fault, or it has none and there is a first one behind its name. A check
that goes through a list by recursion is compared with this. -/
theorem firstFault_cons :
    FirstFault name fault (x :: xs) e
      ↔ fault [] x e ∨ (∀ e', ¬fault [] x e')
        ∧ FirstFault name (fun names => fault (name x :: names)) xs e := by
  constructor
  · rintro ⟨i, hi, hbefore⟩
    cases i using Fin.cases with
    | zero => exact .inl hi
    | succ i =>
      refine .inr ⟨hbefore 0 (Fin.succ_pos i), i, hi, fun j hj => ?_⟩
      exact hbefore j.succ (Fin.succ_lt_succ_iff.2 hj)
  · rintro (hx | ⟨hx, i, hi, hbefore⟩)
    · exact ⟨0, hx, fun j hj => absurd hj (Fin.not_lt_zero j)⟩
    · refine ⟨i.succ, hi, fun j hj => ?_⟩
      cases j using Fin.cases with
      | zero => exact hx
      | succ j => exact hbefore j (Fin.succ_lt_succ_iff.1 hj)

/-- The first fault is one of a part `x` behind others that have none, and ahead of any others. -/
theorem firstFault_iff_append :
    FirstFault name fault xs e
      ↔ ∃ before x after, xs = before ++ x :: after
        ∧ (∀ e', ¬FirstFault name fault before e') ∧ fault (before.map name) x e := by
  induction xs generalizing fault with
  | nil =>
    refine ⟨fun h => absurd h not_firstFault_nil, ?_⟩
    rintro ⟨before, x, after, hxs, -⟩
    simp at hxs
  | cons x xs ih =>
    rw [firstFault_cons, ih]
    constructor
    · rintro (hx | ⟨hx, before, y, after, rfl, hbefore, hy⟩)
      · exact ⟨[], x, xs, rfl, fun _ => not_firstFault_nil, hx⟩
      · refine ⟨x :: before, y, after, rfl, fun e' he' => ?_, hy⟩
        rcases firstFault_cons.1 he' with he' | ⟨-, he'⟩
        · exact hx e' he'
        · exact hbefore e' he'
    · rintro ⟨before, y, after, hxs, hbefore, hy⟩
      cases before with
      | nil =>
        cases hxs
        exact .inl hy
      | cons z before =>
        cases hxs
        have hx : ∀ e', ¬fault [] x e' := fun e' he' => hbefore e' (firstFault_cons.2 (.inl he'))
        refine .inr ⟨hx, before, y, after, rfl, fun e' he' => ?_, hy⟩
        exact hbefore e' (firstFault_cons.2 (.inr ⟨hx, he'⟩))

/-- A `check` of the parts of a list behind names that it has passed. It stops with a fault of the
first part, and goes on behind the name of a part that has none; which faults a part has depends on
which names there are, not on their order. -/
structure StopsAtFault (name : α → String) (fault : List String → α → ε → Prop)
    (check : List String → List α → Except ε β) : Prop where
  congr {names names' : List String} {x : α} {e : ε} (h : ∀ n, n ∈ names ↔ n ∈ names') :
    fault names x e → fault names' x e
  nil (names : List String) : ∃ b, check names [] = .ok b
  stops {names : List String} {x : α} {xs : List α} {e : ε} (h : fault names x e) :
    check names (x :: xs) = .error e
  goes_on {names : List String} {x : α} {xs : List α} {e : ε} (h : ∀ e', ¬fault names x e') :
    check names (x :: xs) = .error e ↔ check (name x :: names) xs = .error e

namespace StopsAtFault

variable {check : List String → List α → Except ε β}

/-- A check behind `names` fails for the first fault behind them. The induction is on the parts;
`congr` lets a check keep its names in any order. -/
theorem eq_error_iff_behind (h : StopsAtFault name fault check) {names : List String} :
    check names xs = .error e
      ↔ FirstFault name (fun before => fault (before ++ names)) xs e := by
  induction xs generalizing names with
  | nil =>
    obtain ⟨b, hb⟩ := h.nil names
    rw [hb]
    exact ⟨nofun, fun hfault => absurd hfault not_firstFault_nil⟩
  | cons x xs ih =>
    -- Behind the first part its name stands before the names that were passed, not behind them.
    have horder : (fun before => fault (before ++ name x :: names))
        = fun before => fault (name x :: before ++ names) := by
      funext before y e
      refine propext ⟨h.congr ?_, h.congr ?_⟩ <;> simp [or_left_comm]
    rw [firstFault_cons, List.nil_append, ← horder]
    by_cases hx : ∃ e', fault names x e'
    · obtain ⟨e', he'⟩ := hx
      rw [h.stops he']
      constructor
      · rintro ⟨⟩
        exact .inl he'
      · rintro (he | ⟨hnone, -⟩)
        · have hstops : check names (x :: xs) = .error e' := h.stops he'
          rw [← hstops, h.stops he]
        · exact absurd he' (hnone e')
    · have hnone : ∀ e', ¬fault names x e' := fun e' he' => hx ⟨e', he'⟩
      rw [h.goes_on hnone, ih]
      exact ⟨fun he => .inr ⟨hnone, he⟩, fun he => he.elim (fun he => absurd he (hnone e)) (·.2)⟩

/-- **A check that stops at faults (`StopsAtFault`) fails for the first fault, and for no other.**
-/
theorem eq_error_iff (h : StopsAtFault name fault check) :
    check [] xs = .error e ↔ FirstFault name fault xs e := by
  have hbehind : check [] xs = .error e
      ↔ FirstFault name (fun before => fault (before ++ [])) xs e := h.eq_error_iff_behind
  simpa using hbehind

end StopsAtFault

end WorkflowTemplates
