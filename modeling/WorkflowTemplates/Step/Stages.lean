import WorkflowTemplates.Step.TaskStep

/-!
# Stages

Stages run one after the other, and the steps of a stage side by side. A step is a stage of its own
unless it is added inside a parallel scope: there it joins the stage that the scope has open, or
opens one. A scope inside a scope cuts the outer one: its steps are in stages of their own, and the
outer scope goes on with a fresh stage.

`Stages.run` carries a tree of actions out, and `stagesOf` says what comes out of it without any
state.
-/

namespace WorkflowTemplates

/-- The stages so far, whether a parallel scope is open, and whether the last stage belongs to it so
that further steps join it. -/
structure Stages where
  stages : List (List TaskStep) := []
  parallel : Bool := false
  stageOpen : Bool := false

/-- How a scope is opened: around a function, or by a guard. Both close alike (`Stages.closeScope`),
however they are left. -/
inductive ScopeForm
  | function
  | guard
  deriving DecidableEq

/-- What is done with stages: a step is added, a scope is opened around further actions, or the
innermost scope is left. -/
inductive StageAction
  | add (s : TaskStep)
  | scope (form : ScopeForm) (body : List StageAction)
  /-- Leaves the innermost scope, or stops outside of all scopes. -/
  | leave

namespace Stages

/-- The stages with the step `s` at the end of the last one; without a stage there is nothing to add
it to. -/
def appendToLast (s : TaskStep) : List (List TaskStep) → List (List TaskStep)
  | [] => []
  | [last] => [last ++ [s]]
  | stage :: rest => stage :: appendToLast s rest

/-- The stages with the step `s`: in the last one if an open scope has it, else in a stage of its
own, which a scope that is open then has. -/
def add (t : Stages) (s : TaskStep) : Stages :=
  if t.parallel && t.stageOpen then { t with stages := appendToLast s t.stages }
  else { t with stages := t.stages ++ [[s]], stageOpen := t.parallel || t.stageOpen }

/-- The stages inside a new parallel scope, which has no stage yet. -/
def openScope (t : Stages) : Stages :=
  { t with parallel := true, stageOpen := false }

/-- The stages behind a scope that was opened when they were `outer`. A scope around it goes on with
a fresh stage, since the last one is not its own any more. -/
def closeScope (t outer : Stages) : Stages :=
  { t with parallel := outer.parallel, stageOpen := outer.stageOpen && !outer.parallel }

mutual

/-- The stages behind an action, with the actions that finished on the way and the stages behind
each, and whether to go on; `leave` stops the actions around it. -/
def runOne (t : Stages) : StageAction → Stages × List (StageAction × Stages) × Bool
  | .add s => (t.add s, [(.add s, t.add s)], true)
  | .scope form body =>
    let (inner, trace) := runAll t.openScope body
    let t := inner.closeScope t
    (t, trace ++ [(.scope form body, t)], true)
  | .leave => (t, [], false)

/-- The stages behind actions, up to the first that leaves, with the actions that finished on the
way and the stages behind each. -/
def runAll (t : Stages) : List StageAction → Stages × List (StageAction × Stages)
  | [] => (t, [])
  | a :: rest =>
    let (t, trace, goOn) := runOne t a
    if goOn then
      let (t, more) := runAll t rest
      (t, trace ++ more)
    else (t, trace)

end

/-- The stages of `actions`, from none on, and the stages behind each finished action in the order
in which they finish. -/
def run (actions : List StageAction) : Stages × List (StageAction × Stages) :=
  runAll {} actions

/-- The workflow steps of the steps of a stage (`TaskStep.toWorkflowStep`), whose templates are
looked up by name, or the first error. -/
def resolveStage (find : String → Option CompiledTemplate) :
    List TaskStep → Except Error (List WorkflowStep)
  | [] => .ok []
  | s :: rest => do
    match find s.template with
    | none => .error (.unknownTemplate s.template)
    | some c =>
      let w ← s.toWorkflowStep c
      let ws ← resolveStage find rest
      .ok (w :: ws)

/-- The workflow steps of all stages, stage by stage (`resolveStage`), or the first error. -/
def resolveStages (find : String → Option CompiledTemplate) :
    List (List TaskStep) → Except Error (List (List WorkflowStep))
  | [] => .ok []
  | stage :: rest => do
    let ws ← resolveStage find stage
    let more ← resolveStages find rest
    .ok (ws :: more)

/-- The workflow steps of the stages `t`, in their places; `find` looks templates up by name. -/
def toWorkflowSteps (t : Stages) (find : String → Option CompiledTemplate) :
    Except Error (List (List WorkflowStep)) :=
  resolveStages find t.stages

end Stages

/-! ## Stages without state -/

/-- The run of steps that a scope has gathered, as a stage; no steps make no stage. -/
def stageOfRun (run : List TaskStep) : List (List TaskStep) :=
  if run.isEmpty then [] else [run]

mutual

/-- The stages of the body of a scope that has `gathered` a run of steps: the run ends at every
scope inside, whose stages stand between the runs, and at the end of the body. -/
def stagesOfBody (gathered : List TaskStep) : List StageAction → List (List TaskStep)
  | [] => stageOfRun gathered
  | .add s :: rest => stagesOfBody (gathered ++ [s]) rest
  | .scope _ body :: rest => stageOfRun gathered ++ stagesOfScope body ++ stagesOfBody [] rest
  | .leave :: _ => stageOfRun gathered

/-- The stages of a scope, which has gathered nothing when it is opened (`stagesOfBody`). -/
def stagesOfScope (body : List StageAction) : List (List TaskStep) :=
  stagesOfBody [] body

end

/-- The stages of actions outside of all scopes, where each step is a stage of its own. -/
def stagesOf : List StageAction → List (List TaskStep)
  | [] => []
  | .add s :: rest => [s] :: stagesOf rest
  | .scope _ body :: rest => stagesOfScope body ++ stagesOf rest
  | .leave :: _ => []

end WorkflowTemplates
