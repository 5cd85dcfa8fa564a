/-!
# Parameters

A parameter of a template or of a call has at most a literal default or value and an indirect
source (`ValueFrom`), and perhaps a closed set of allowed values. A template's parameter without
default and source must be supplied by the caller.
-/

namespace WorkflowTemplates

/-- A key of a config map of the cluster, which may be allowed to be missing. -/
structure ConfigMapKeySelector where
  key : String
  name : Option String := none
  optional : Option Bool := none
  deriving DecidableEq

/-- Where the engine looks the value of a parameter up; nothing here looks at the fields again. -/
structure ValueFrom where
  configMapKeyRef : Option ConfigMapKeySelector := none
  /-- The value that counts if the look-up finds nothing. -/
  default : Option String := none
  event : Option String := none
  expression : Option String := none
  jqFilter : Option String := none
  jsonPath : Option String := none
  parameter : Option String := none
  path : Option String := none
  deriving DecidableEq

/-- A parameter of a template, which has a `default`, or of a call, which has a `value`; either may
have a source in the place of the literal. -/
structure Parameter where
  name : String
  /-- The literal default of a template's parameter. -/
  default : Option String := none
  /-- The closed set of values that are allowed, written under the key `enum`. -/
  allowed : Option (List String) := none
  /-- The literal value of a call's parameter. -/
  value : Option String := none
  /-- The indirect source from which the engine takes the value. -/
  valueFrom : Option ValueFrom := none
  description : Option String := none
  deriving DecidableEq

/-- The source from which the engine takes the value under `key` of the config map `name`. -/
def ValueFrom.ofConfigMap (name key : String) : ValueFrom :=
  { configMapKeyRef := some { key, name := some name } }

namespace Parameter

/-- Whether the caller must supply the value of the parameter `p`: it has neither a default nor a
source. -/
def isRequired (p : Parameter) : Bool :=
  p.default.isNone && p.valueFrom.isNone

end Parameter

end WorkflowTemplates
