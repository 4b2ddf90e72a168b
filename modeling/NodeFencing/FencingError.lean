import NodeFencing.DecodeError

/-!
# Misconfiguration

Faults of a configuration and of its use.  None of them goes away by trying again.

## Main Definitions

* `ConfigFault` — why a configuration is not usable
* `FencingError` — why a configuration cannot be read, chosen or carried out
* `FencingError.message` — the wording of each cause
-/

namespace NodeFencing

/-- Why a configuration is not usable, with the name of the method at fault. -/
inductive ConfigFault where
  | noMethods
  | unnamedMethod
  | duplicateMethod (method : String)
  /-- Two names that become the same in names of jobs or in labels. -/
  | indistinctMethod (method : String)
  | negativeRetries (method : String)
  | noMechanisms (method : String)
  | agentMissing (method : String)
  | programMissing (method : String)
  /-- A parameter that depends on the node and has no name. -/
  | unnamedField (method : String)
  deriving Repr, DecidableEq, Inhabited

/-- The wording of a fault. -/
def ConfigFault.message : ConfigFault → String
  | noMethods => "no methods defined"
  | unnamedMethod => "method without a name"
  | duplicateMethod method => s!"duplicate method '{method}'"
  | indistinctMethod method =>
    s!"method '{method}' is indistinguishable from another method once normalized for Job names and labels"
  | negativeRetries method => s!"method '{method}' has negative retries"
  | noMechanisms method => s!"method '{method}' has no mechanisms"
  | agentMissing method => s!"baremetal mechanism in '{method}' needs a module or a command"
  | programMissing method => s!"custom mechanism in '{method}' needs an image and a command"
  | unnamedField method => s!"dynamic config without a field in '{method}'"

/-- Why a configuration cannot be read, chosen or carried out. -/
inductive FencingError where
  /-- The text of a configuration does not decode. -/
  | unreadable (name : String) (cause : DecodeError)
  /-- The configuration decodes and is not usable. -/
  | invalidConfig (name : String) (fault : ConfigFault)
  /-- The source of a configuration lacks the entry that should hold it. -/
  | missingData (name key : String)
  /-- A parameter has no value for the node. -/
  | missingValue (field target : String)
  /-- The way of passing parameters is not known. -/
  | unsupportedFormat (format : String)
  /-- A mechanism of the method cannot be carried out. -/
  | methodAborted (method : String) (cause : FencingError)
  /-- No configuration is for the node. -/
  | noConfig (target : String)
  deriving Repr, DecidableEq, Inhabited

/-- The wording of an error. -/
def FencingError.message : FencingError → String
  | unreadable name cause => s!"Failed to parse fencing configuration '{name}': {cause.message}"
  | invalidConfig name fault => s!"Invalid fencing configuration '{name}': {fault.message}"
  | missingData name key => s!"ConfigMap '{name}' has no '{key}' entry"
  | missingValue field target => s!"No value of '{field}' found for '{target}'"
  | unsupportedFormat format => s!"ArgumentFormat '{format}' not supported"
  | methodAborted method cause => s!"Method '{method}' aborted: {cause.message}"
  | noConfig target => s!"No valid config for {target}"

end NodeFencing
