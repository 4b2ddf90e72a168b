import NodeFencing.Settings.Basic
import NodeFencing.Text.Character
import NodeFencing.Width
import NodeFencing.Yaml.Decode

/-!
# Reading settings

Settings are written in YAML.  Everything has a default, so an empty document is enough.

## Main Definitions

* `RecoveryPolicy.decoder`, `LeaderSettings.decoder`, `Settings.decoder`
* `Settings.ofYaml` — read settings
-/

namespace NodeFencing

open Yaml (Decoder Value)
open Yaml.Decoder (Content bool dictionary field float list natural record string)

/-- A natural number of 32 bits. -/
private def nat32 : Decoder Nat :=
  natural (greatestUnsigned 32)

/-- A natural number of 64 bits. -/
private def nat64 : Decoder Nat :=
  natural (greatestUnsigned 64)

/-! ### Recovery -/

/-- The kinds of policies. -/
inductive RecoveryMode where
  | immediate
  | afterStable
  | disabled
  deriving Repr, DecidableEq, Inhabited

namespace RecoveryMode

/-- The name of a kind. -/
def name : RecoveryMode → String
  | immediate => "immediate"
  | afterStable => "afterStable"
  | disabled => "disabled"

/-- The kind of a name. -/
def named? (name : String) : Option RecoveryMode :=
  [immediate, afterStable, disabled].find? (·.name == name)

end RecoveryMode

/-- The field for the time that a node has to be ready. -/
def stableField : String := "stableSeconds"

/-- A number of seconds. -/
private def secondsOf : Value → Except DecodeError Nat
  | .number (.integer n) => if 0 ≤ n then .ok n.toNat else .error .invalidValue
  | _ => .error .invalidType

/-- Look for the time among the entries of a record.  The number zero stands for its first field,
and so for this one; other numbers of fields are skipped. -/
private def stableFrom : Option Nat → List (Value × Value) → Except DecodeError Nat
  | some n, [] => .ok n
  | none, [] => .error (.missingField stableField)
  | found, (key, v) :: rest => do
    let wanted ← match key with
      | .string key => .ok (key == stableField)
      | .number (.integer n) => if 0 ≤ n then .ok (n == 0) else .error .invalidType
      | _ => .error .invalidType
    if wanted then
      if found.isSome then throw (.duplicateField stableField)
      stableFrom (some (← secondsOf v)) rest
    else stableFrom found rest

/-- A policy of a known kind.  What is not used by a kind without fields is skipped in a record,
but makes a list too long. -/
private def policyOf : RecoveryMode → Content → Except DecodeError RecoveryPolicy
  | .afterStable, .named entries => .afterStable <$> stableFrom none entries
  | .afterStable, .positional [v] => .afterStable <$> secondsOf v
  | .afterStable, .positional [] => .error .invalidLength
  | .afterStable, .positional (v :: _) => do let _ ← secondsOf v; throw .invalidLength
  | .immediate, .named _ | .immediate, .positional [] => .ok .immediate
  | .disabled, .named _ | .disabled, .positional [] => .ok .disabled
  | _, .positional _ => .error .invalidLength

/-- A policy is its mode together with what the mode asks for. -/
def RecoveryPolicy.decoder : Decoder RecoveryPolicy := fun depth n => do
  let (mode, content) ← Decoder.oneOf "mode" RecoveryMode.named? depth n
  match policyOf mode content with
  | .ok policy => return policy
  | .error e => throw e

/-! ### Sections -/

/-- Every setting on jobs may be left out and keeps its default then. -/
def DispatchSettings.decoder : Decoder DispatchSettings :=
  record [
    field "secretsMountRoot" string fun x s => { s with secretsRoot := x },
    field "configLabelSelector" string fun x s => { s with configSelector := x },
    field "configKey" string fun x s => { s with configKey := x },
    field "operatorImage" string fun x s => { s with operatorImage := x },
    field "driverImages" (dictionary string) fun x s => { s with driverImages := x },
    field "jobPollSeconds" nat64 fun x s => { s with jobPollSeconds := x }
  ] [] {}

/-- Every setting on the health of nodes may be left out and keeps its default then. -/
def HealthSettings.decoder : Decoder HealthSettings :=
  record [
    field "unhealthyAfterSeconds" nat64 fun x s => { s with unhealthyAfterSeconds := x },
    field "sweepIntervalSeconds" nat64 fun x s => { s with sweepIntervalSeconds := x },
    field "problemSources" (list string) fun x s => { s with problemSources := x },
    field "fenceOnProblemEvents" bool fun x s => { s with fenceOnProblemEvents := x },
    field "recovery" RecoveryPolicy.decoder fun x s => { s with recovery := x }
  ] [] {}

/-- Every setting on retries may be left out and keeps its default then. -/
def RetrySettings.decoder : Decoder RetrySettings :=
  record [
    field "initialDelayMs" nat64 fun x s => { s with initialDelayMs := x },
    field "factor" float fun x s => { s with factor := x },
    field "steps" nat32 fun x s => { s with steps := x }
  ] [] {}

/-- Every setting on the lease may be left out and keeps its default then. -/
def LeaderSettings.decoder : Decoder LeaderSettings :=
  record [
    field "leaseName" string fun x s => { s with leaseName := x },
    field "leaseDurationSeconds" nat64 fun x s => { s with leaseDurationSeconds := x },
    field "renewDeadlineSeconds" nat64 fun x s => { s with renewDeadlineSeconds := x },
    field "renewIntervalSeconds" nat64 fun x s => { s with renewIntervalSeconds := x }
  ] [] {}

/-- Each of the four sections may be left out. -/
def Settings.decoder : Decoder Settings :=
  record [
    field "fencing" DispatchSettings.decoder fun x s => { s with dispatch := x },
    field "health" HealthSettings.decoder fun x s => { s with health := x },
    field "retry" RetrySettings.decoder fun x s => { s with retry := x },
    field "leader" LeaderSettings.decoder fun x s => { s with leader := x }
  ] [] {}

/-- Read settings.  An image given from outside replaces the one they name, unless it is blank. -/
def Settings.ofYaml (text : String) (image : Option String := none) :
    Except DecodeError Settings := do
  let s ← Yaml.decode Settings.decoder text
  match image.filter fun image => !isBlankText image with
  | some image => return { s with dispatch := { s.dispatch with operatorImage := image } }
  | none => return s

end NodeFencing
