import WorkflowTemplates.Proofs.Traversal
import WorkflowTemplates.Step.Stages

/-!
# Workflow steps of task steps and of stages

A task step has a workflow step against a template of the name that it calls, unless the arguments
of its call or the items that it loops over have no encoding (`toWorkflowStep_eq_ok`,
`toWorkflowStep_eq_error`). The workflow steps of stages stand where their task steps do, and if a
task step has none, the first such one says why (`toWorkflowSteps_outcome`).
-/

namespace WorkflowTemplates

namespace TaskStep

variable {s : TaskStep} {c : CompiledTemplate} {w : WorkflowStep} {e : Error}
  {find : String → Option CompiledTemplate}

/-! ## One step -/

/-- A step has a workflow step exactly if the template has the name that it calls, and the
parameters that it passes and the items that it loops over are there. The workflow step is then made
of these and of what the step says itself. -/
theorem toWorkflowStep_eq_ok :
    s.toWorkflowStep c = .ok w ↔ c.name = s.template ∧ ∃ ps, s.parameters c = .ok ps
      ∧ ∃ items, s.withItems c = .ok items
      ∧ { name := s.name, template := s.template,
          arguments := if ps.isEmpty then none else some ps, withItems := items,
          withParam := s.withParam, withSequence := s.sequence,
          condition := s.condition : WorkflowStep } = w := by
  rw [toWorkflowStep]
  split
  · next hname => exact ⟨nofun, fun h => absurd h.1 hname⟩
  · next hname =>
    rw [mapError_eq_ok, encodeAgainst]
    simp only [bind_eq_ok, Except.ok.injEq, not_not.1 hname, true_and]

/-- Why a step has no workflow step against a template. The arguments of its call are encoded before
the items that it loops over, and nothing is encoded for a template of another name. -/
inductive Refused (s : TaskStep) (c : CompiledTemplate) : Error → Prop
  | name : c.name ≠ s.template → Refused s c (.templateMismatch s.name s.template c.name)
  | call {a : Arguments} {e : EncodingError} : c.name = s.template → s.arguments = some a →
    c.resolveArguments a = .error e → Refused s c (.encoding e)
  | item {items : List Arguments} {e : EncodingError} : c.name = s.template →
    (∀ a, s.arguments = some a → ∃ ps, c.resolveArguments a = .ok ps) →
    s.batch = some (.items items) → encodeItems c.declaredType? items = .error e →
    Refused s c (.encoding e)

/-- The parameters of a step fail exactly if those of its call do: a step without a call has none of
its own. -/
theorem parameters_eq_error {e : EncodingError} :
    s.parameters c = .error e ↔ ∃ a, s.arguments = some a ∧ c.resolveArguments a = .error e := by
  unfold parameters
  split <;> simp_all

/-- The items of a step fail exactly if it loops over items that do; other loops have no items to
encode. -/
theorem withItems_eq_error {e : EncodingError} :
    s.withItems c = .error e
      ↔ ∃ items, s.batch = some (.items items) ∧ encodeItems c.declaredType? items = .error e := by
  unfold withItems
  split <;> simp_all [map_eq_error]

/-- A step has no workflow step exactly for the reasons that are listed in `Refused`. -/
theorem toWorkflowStep_eq_error : s.toWorkflowStep c = .error e ↔ s.Refused c e := by
  have hcall : (∃ ps, s.parameters c = .ok ps)
      ↔ ∀ a, s.arguments = some a → ∃ ps, c.resolveArguments a = .ok ps := by
    simp only [exists_ok_iff, parameters_eq_error]
    grind
  rw [toWorkflowStep]
  constructor
  · split
    · next hname =>
      rintro ⟨⟩
      exact .name hname
    · next hname =>
      rw [mapError_eq_error, encodeAgainst]
      rintro ⟨e, he, rfl⟩
      rw [bind_eq_error, parameters_eq_error] at he
      rcases he with ⟨a, ha, he⟩ | ⟨ps, hps, he⟩
      · exact .call (not_not.1 hname) ha he
      · rw [bind_eq_error, withItems_eq_error] at he
        rcases he with ⟨items, hitems, he⟩ | ⟨_, -, ⟨⟩⟩
        exact .item (not_not.1 hname) (hcall.1 ⟨ps, hps⟩) hitems he
  · rintro (hname | ⟨hname, ha, he⟩ | ⟨hname, hresolved, hitems, he⟩)
    · rw [if_pos hname]
    · rw [if_neg (not_not.2 hname), encodeAgainst, parameters_eq_error.2 ⟨_, ha, he⟩]
      rfl
    · obtain ⟨ps, hps⟩ := hcall.2 hresolved
      rw [if_neg (not_not.2 hname), encodeAgainst, hps, withItems_eq_error.2 ⟨_, hitems, he⟩]
      rfl

/-! ## A step whose template is looked up -/

/-- A step gives a workflow step if a template of the name that it calls is found (`find`), against
which it has it. -/
def Gives (find : String → Option CompiledTemplate) (s : TaskStep) (w : WorkflowStep) : Prop :=
  ∃ c, find s.template = some c ∧ c.name = s.template ∧ s.toWorkflowStep c = .ok w

/-- Why a step gives no workflow step: no template is found under the name that it calls, or the
step has none against the one that is (`Refused`). -/
inductive Fails (find : String → Option CompiledTemplate) (s : TaskStep) : Error → Prop
  | unknown : find s.template = none → Fails find s (.unknownTemplate s.template)
  | refused {c : CompiledTemplate} {e : Error} : find s.template = some c → s.Refused c e →
    Fails find s e

/-- The workflow step of a step whose template is looked up by name, which is what `toWorkflowSteps`
does for each step. -/
def resolve (find : String → Option CompiledTemplate) (s : TaskStep) : Except Error WorkflowStep :=
  match find s.template with
  | none => .error (.unknownTemplate s.template)
  | some c => s.toWorkflowStep c

theorem resolve_eq_ok : s.resolve find = .ok w ↔ s.Gives find w := by
  unfold resolve Gives
  split
  · next h => simp [h]
  · next c h =>
    simp only [h, Option.some.injEq, exists_eq_left']
    exact ⟨fun hw => ⟨(toWorkflowStep_eq_ok.1 hw).1, hw⟩, fun hw => hw.2⟩

theorem resolve_eq_error : s.resolve find = .error e ↔ s.Fails find e := by
  unfold resolve
  split
  · next h =>
    refine ⟨?_, ?_⟩
    · rintro ⟨⟩
      exact .unknown h
    · rintro (_ | ⟨hc, -⟩)
      · rfl
      · cases h.symm.trans hc
  · next c h =>
    rw [toWorkflowStep_eq_error]
    refine ⟨.refused h, ?_⟩
    rintro (hnone | ⟨hc, he⟩)
    · cases h.symm.trans hnone
    · cases h.symm.trans hc
      exact he

/-- A workflow step has the names of the step that gives it: its own, and that of the template
(`Gives`). -/
theorem Gives.names (h : s.Gives find w) : w.name = s.name ∧ w.template = s.template := by
  obtain ⟨c, -, -, hw⟩ := h
  obtain ⟨-, ps, -, items, -, rfl⟩ := toWorkflowStep_eq_ok.1 hw
  exact ⟨rfl, rfl⟩

end TaskStep

/-! ## Stages -/

namespace Stages

variable {find : String → Option CompiledTemplate}

theorem resolveStage_eq (stage : List TaskStep) :
    resolveStage find stage = stage.mapM (TaskStep.resolve find) := by
  induction stage with
  | nil => rfl
  | cons s rest ih =>
    rw [List.mapM_cons, resolveStage, ih, TaskStep.resolve]
    cases find s.template <;> rfl

theorem resolveStages_eq (stages : List (List TaskStep)) :
    resolveStages find stages = stages.mapM (List.mapM (TaskStep.resolve find)) := by
  induction stages with
  | nil => rfl
  | cons stage rest ih =>
    rw [List.mapM_cons, resolveStages, ih, resolveStage_eq]
    rfl

/-- **The workflow steps of stages are those of their steps, or none.** They are there exactly if
every step of every stage gives one, and each stands where its step does and has the names of the
step. Otherwise the error is that of the first step that gives none, stage by stage and step by
step. -/
theorem toWorkflowSteps_outcome (t : Stages) (find : String → Option CompiledTemplate) :
    (∀ out, t.toWorkflowSteps find = .ok out
        ↔ List.Forall₂ (List.Forall₂ (TaskStep.Gives find)) t.stages out)
      ∧ (∀ out, t.toWorkflowSteps find = .ok out
        → List.Forall₂ (List.Forall₂ fun s w => w.name = s.name ∧ w.template = s.template)
          t.stages out)
      ∧ (∀ e, t.toWorkflowSteps find = .error e
        ↔ ∃ before s after, t.stages.flatten = before ++ s :: after
          ∧ (∀ b ∈ before, ∃ w, b.Gives find w) ∧ s.Fails find e)
      ∧ ((∃ e, t.toWorkflowSteps find = .error e)
        ↔ ∃ stage ∈ t.stages, ∃ s ∈ stage, ∃ e, s.Fails find e) := by
  have hok (out : List (List WorkflowStep)) : t.toWorkflowSteps find = .ok out
      ↔ List.Forall₂ (List.Forall₂ (TaskStep.Gives find)) t.stages out := by
    rw [toWorkflowSteps, resolveStages_eq, mapM_eq_ok]
    simp only [mapM_eq_ok, TaskStep.resolve_eq_ok]
  have herror (e : Error) : t.toWorkflowSteps find = .error e
      ↔ FirstFails (TaskStep.resolve find) t.stages.flatten e := by
    rw [toWorkflowSteps, resolveStages_eq, mapM_mapM_eq_error]
  refine ⟨hok, fun out h => ?_, fun e => ?_, ?_⟩
  · exact ((hok out).1 h).imp fun _ _ hstage => hstage.imp fun _ _ hs => hs.names
  · simp only [herror, FirstFails, TaskStep.resolve_eq_ok, TaskStep.resolve_eq_error]
  · simp only [herror, exists_firstFails_iff, TaskStep.resolve_eq_error, List.mem_flatten]
    grind

end Stages

end WorkflowTemplates
