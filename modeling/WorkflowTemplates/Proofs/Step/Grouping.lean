import WorkflowTemplates.Step.Stages

/-!
# Stages follow scopes

A run of actions keeps two flags, which scopes save and restore, and changes the last stage in
place. `stagesOf` groups the steps of the same actions without any state. `run_stages_eq` proves
the two equal: inside a scope the run stands behind the stages that were there and the steps that
the scope has gathered since it was opened or last cut (`Gathering`), and outside of all scopes
both flags are down (`runAll_outside`).
-/

namespace WorkflowTemplates

/-- The steps that actions add, in the order in which they are carried out: what stands behind an
action that leaves is not carried out. -/
def addedSteps : List StageAction → List TaskStep
  | [] => []
  | .add s :: rest => s :: addedSteps rest
  | .scope _ body :: rest => addedSteps body ++ addedSteps rest
  | .leave :: _ => []

/-! ## The grouping without state -/

/-- The steps of the stage of a run are the run; an empty run has no stage. -/
theorem flatten_stageOfRun (run : List TaskStep) : (stageOfRun run).flatten = run := by
  cases run with
  | nil => rfl
  | cons s rest => simp [stageOfRun]

/-- The steps of the stages of a scope are the gathered ones and those that its body adds, by
induction over the actions of the body. -/
theorem flatten_stagesOfBody : ∀ (body : List StageAction) (gathered : List TaskStep),
    (stagesOfBody gathered body).flatten = gathered ++ addedSteps body
  | [], gathered | .leave :: _, gathered => by
    simp [stagesOfBody, addedSteps, flatten_stageOfRun]
  | .add s :: rest, gathered => by
    rw [stagesOfBody, flatten_stagesOfBody rest]
    simp [addedSteps]
  | .scope _ body :: rest, gathered => by
    rw [stagesOfBody, stagesOfScope, List.flatten_append, List.flatten_append,
      flatten_stageOfRun, flatten_stagesOfBody body, flatten_stagesOfBody rest]
    simp [addedSteps]

/-- The steps of the stages, one stage after the other, are the added ones (`addedSteps`) in their
order. -/
theorem flatten_stagesOf : ∀ actions : List StageAction,
    (stagesOf actions).flatten = addedSteps actions
  | [] | .leave :: _ => by
    rw [stagesOf, addedSteps]
    rfl
  | .add s :: rest => by
    rw [stagesOf, List.flatten_cons, flatten_stagesOf rest, addedSteps]
    rfl
  | .scope _ body :: rest => by
    rw [stagesOf, stagesOfScope, List.flatten_append, flatten_stagesOfBody,
      flatten_stagesOf rest, addedSteps]
    rfl

namespace Stages

/-! ## One action of a run -/

/-- Behind an added step the run goes on with the stages that have it, which is one equation of
`runAll`. -/
theorem runAll_add (t : Stages) (s : TaskStep) (rest : List StageAction) :
    (t.runAll (.add s :: rest)).1 = ((t.add s).runAll rest).1 := rfl

/-- Behind a scope the run goes on with the stages of the scope, closed (`closeScope`), whatever
form the scope has. -/
theorem runAll_scope (t : Stages) (form : ScopeForm) (body rest : List StageAction) :
    (t.runAll (.scope form body :: rest)).1
      = (((t.openScope.runAll body).1.closeScope t).runAll rest).1 := rfl

/-- A step joins the stage at the end, and the stages `before` stay. -/
theorem appendToLast_append (s : TaskStep) (before : List (List TaskStep))
    (last : List TaskStep) : appendToLast s (before ++ [last]) = before ++ [last ++ [s]] := by
  induction before with
  | nil => rfl
  | cons stage rest ih =>
    obtain ⟨next, more, h⟩ := List.exists_cons_of_ne_nil (l := rest ++ [last]) (by simp)
    rw [List.cons_append, h, appendToLast, ← h, ih]
    · rfl
    · simp

/-! ## Inside a scope -/

/-- Stages inside a scope that has gathered a run of steps behind the stages `before`: the last
stage is the run, and it is open as soon as the run has a step. This is what every action in the
body of a scope keeps. -/
structure Gathering (t : Stages) (before : List (List TaskStep)) (run : List TaskStep) :
    Prop where
  parallel : t.parallel = true
  stageOpen : t.stageOpen = !run.isEmpty
  stages : t.stages = before ++ stageOfRun run

/-- A new scope has gathered nothing, behind the stages that were there (`Gathering`). -/
theorem gathering_openScope (t : Stages) : Gathering t.openScope t.stages [] where
  parallel := rfl
  stageOpen := rfl
  stages := (List.append_nil _).symm

/-- A scope inside a scope cuts the outer one, which goes on with nothing gathered (`Gathering`),
also if the inner one added nothing. -/
theorem Gathering.closeScope {outer : Stages} {before : List (List TaskStep)}
    {run : List TaskStep} (h : Gathering outer before run) (inner : Stages) :
    Gathering (inner.closeScope outer) inner.stages [] where
  parallel := h.parallel
  stageOpen := by
    rw [Stages.closeScope, h.parallel, Bool.not_true, Bool.and_false]
    rfl
  stages := (List.append_nil _).symm

/-- A step added inside a scope joins the run (`Gathering`): it opens the stage if it is the first
one. -/
theorem Gathering.add {t : Stages} {before : List (List TaskStep)} {run : List TaskStep}
    (h : Gathering t before run) (s : TaskStep) : Gathering (t.add s) before (run ++ [s]) := by
  have hp := h.parallel
  have ho := h.stageOpen
  have hs := h.stages
  cases run with
  | nil =>
    refine ⟨?_, ?_, ?_⟩ <;> simp_all [Stages.add, stageOfRun]
  | cons r run =>
    have hlast : appendToLast s t.stages = before ++ [r :: run ++ [s]] := by
      rw [hs, stageOfRun, List.isEmpty_cons, if_neg Bool.false_ne_true, appendToLast_append]
    refine ⟨?_, ?_, ?_⟩ <;> simp_all [Stages.add, stageOfRun]

/-- The stages behind the body of a scope are those before it and those of the grouping
(`stagesOfBody`), by induction over the body with the invariant `Gathering`. -/
theorem Gathering.runAll : ∀ {body : List StageAction} {t : Stages}
    {before : List (List TaskStep)} {run : List TaskStep}, Gathering t before run →
    (t.runAll body).1.stages = before ++ stagesOfBody run body
  | [], _, _, _, h | .leave :: _, _, _, _, h => by
    rw [stagesOfBody]
    exact h.stages
  | .add s :: rest, _, _, _, h => by
    rw [runAll_add, (h.add s).runAll, stagesOfBody]
  | .scope _ body :: rest, t, before, run, h => by
    rw [runAll_scope, (h.closeScope _).runAll, (gathering_openScope t).runAll, h.stages,
      stagesOfBody, stagesOfScope]
    simp only [List.append_assoc]

/-! ## Outside of all scopes -/

/-- A run outside of all scopes adds the stages of the grouping (`stagesOf`) and ends outside of all
scopes, with both flags down. -/
theorem runAll_outside : ∀ (actions : List StageAction) (before : List (List TaskStep)),
    (runAll ⟨before, false, false⟩ actions).1 = ⟨before ++ stagesOf actions, false, false⟩
  | [], before | .leave :: _, before => by
    rw [stagesOf, List.append_nil]
    rfl
  | .add s :: rest, before => by
    have h : add ⟨before, false, false⟩ s = ⟨before ++ [[s]], false, false⟩ := rfl
    rw [runAll_add, h, runAll_outside rest, stagesOf, List.append_assoc]
    rfl
  | .scope _ body :: rest, before => by
    have h : closeScope (runAll (openScope ⟨before, false, false⟩) body).1 ⟨before, false, false⟩
        = ⟨before ++ stagesOfScope body, false, false⟩ := by
      rw [closeScope, (gathering_openScope _).runAll, ← stagesOfScope]
      rfl
    rw [runAll_scope, h, runAll_outside rest, stagesOf, List.append_assoc]

/-! ## No empty stage -/

/-- No stage is empty: an engine would have nothing to run in it. -/
def Filled (t : Stages) : Prop :=
  ∀ stage ∈ t.stages, stage ≠ []

/-- A step at the end of the last stage empties no stage, and no step makes a stage of none. -/
theorem ne_nil_of_mem_appendToLast {s : TaskStep} {stages : List (List TaskStep)}
    (h : ∀ stage ∈ stages, stage ≠ []) : ∀ stage ∈ appendToLast s stages, stage ≠ [] := by
  induction stages using appendToLast.induct with
  | case1 => exact h
  | case2 last =>
    intro stage hm
    rw [appendToLast, List.mem_singleton] at hm
    simp [hm]
  | case3 first rest hrest ih =>
    intro stage hm
    rw [appendToLast, List.mem_cons] at hm
    · rcases hm with rfl | hm
      · exact h stage List.mem_cons_self
      · exact ih (fun x hx => h x (List.mem_cons_of_mem _ hx)) stage hm
    · exact hrest

/-- Adding a step leaves no stage empty (`Filled`), inside a scope or outside. -/
theorem Filled.add {t : Stages} (h : t.Filled) (s : TaskStep) : (t.add s).Filled := by
  unfold Filled Stages.add
  split
  · exact ne_nil_of_mem_appendToLast h
  · intro stage hm
    rcases List.mem_append.1 hm with hm | hm
    · exact h stage hm
    · rw [List.mem_singleton.1 hm]
      exact List.cons_ne_nil s []

/-- No run leaves a stage empty (`Filled`), at its end or behind any action on the way, by induction
over the actions. -/
theorem Filled.runAll : ∀ (actions : List StageAction) {t : Stages}, t.Filled →
    (t.runAll actions).1.Filled ∧ ∀ e ∈ (t.runAll actions).2, e.2.Filled
  | [], _, h | .leave :: _, _, h => ⟨h, nofun⟩
  | .add s :: rest, t, h => by
    obtain ⟨hend, htrace⟩ := Filled.runAll rest (h.add s)
    refine ⟨hend, fun e he => ?_⟩
    rcases List.mem_cons.1 he with rfl | he
    · exact h.add s
    · exact htrace e he
  | .scope _ body :: rest, t, h => by
    obtain ⟨hinner, hbody⟩ := Filled.runAll body (t := t.openScope) h
    obtain ⟨hend, htrace⟩ := Filled.runAll rest
      (t := (t.openScope.runAll body).1.closeScope t) hinner
    refine ⟨hend, fun e he => ?_⟩
    rcases List.mem_append.1 he with he | he
    · rcases List.mem_append.1 he with he | he
      · exact hbody e he
      · rw [List.mem_singleton.1 he]
        exact hinner
    · exact htrace e he

/-! ## Runs -/

/-- **Stages follow scopes.** The stages of a run are those of the grouping without state
(`stagesOf`). None is ever empty, their steps are the added ones in the order in which they were
added, and a step that is added next has a stage of its own. -/
theorem run_stages_eq (actions : List StageAction) :
    (run actions).1.stages = stagesOf actions
      ∧ (run actions).1.Filled ∧ (∀ e ∈ (run actions).2, e.2.Filled)
      ∧ (run actions).1.stages.flatten = addedSteps actions
      ∧ ∀ s, ((run actions).1.add s).stages = (run actions).1.stages ++ [[s]] := by
  have h : (run actions).1 = ⟨stagesOf actions, false, false⟩ := runAll_outside actions []
  obtain ⟨hend, htrace⟩ := Filled.runAll actions (t := {}) nofun
  refine ⟨by rw [h], hend, htrace, ?_, ?_⟩
  · rw [h, flatten_stagesOf]
  · intro s
    rw [h]
    rfl

end Stages

end WorkflowTemplates
