/-!
# Tokens

Tokens are placeholders that the engine replaces when a workflow runs: by what a step gave, or by
the item of a loop. The output of one step is passed to a later one through them.
-/

namespace WorkflowTemplates.Token

/-- The placeholder that the engine replaces by what is found under `path`. -/
def placeholder (path : String) : String :=
  "\x7b\x7b" ++ path ++ "\x7d\x7d"

/-- The placeholder of the item of a loop. -/
def item : String :=
  placeholder "item"

/-- The placeholder of a field of the item of a loop, which is an object then. -/
def itemField (field : String) : String :=
  placeholder ("item." ++ field)

/-- The placeholder of what the step called `step` has under `path`. -/
def ofStep (step path : String) : String :=
  placeholder ("steps." ++ step ++ "." ++ path)

/-- What a step puts out by name: texts or files. -/
inductive OutputKind
  | parameters
  | artifacts
  deriving DecidableEq

/-- The name of a kind of outputs inside a path. -/
def OutputKind.name : OutputKind → String
  | parameters => "parameters"
  | artifacts => "artifacts"

/-- The placeholder of all outputs of a kind. -/
def outputs (step : String) (kind : OutputKind) : String :=
  ofStep step ("outputs." ++ kind.name)

/-- The placeholder of the output called `name`. -/
def output (step : String) (kind : OutputKind) (name : String) : String :=
  ofStep step ("outputs." ++ kind.name ++ "." ++ name)

/-- The placeholder of the identifier of a step. -/
def id (step : String) : String := ofStep step "id"

/-- The placeholder of the address of a step. -/
def ip (step : String) : String := ofStep step "ip"

/-- The placeholder of the status of a step. -/
def status (step : String) : String := ofStep step "status"

/-- The placeholder of the exit code of a step. -/
def exitCode (step : String) : String := ofStep step "exitCode"

/-- The placeholder of the time at which a step started. -/
def startedAt (step : String) : String := ofStep step "startedAt"

/-- The placeholder of the time at which a step finished. -/
def finishedAt (step : String) : String := ofStep step "finishedAt"

/-- The placeholder of what a script of a step printed. -/
def result (step : String) : String := ofStep step "outputs.result"

end WorkflowTemplates.Token
