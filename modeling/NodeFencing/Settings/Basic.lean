import NodeFencing.Backoff
import NodeFencing.Method.PodPart

/-!
# Settings

How the controller works, apart from the configurations of fencing.

## Main Definitions

* `RecoveryPolicy` — what happens to requests whose node recovers
* `DispatchSettings`, `HealthSettings`, `RetrySettings`, `LeaderSettings` — the sections
* `Settings` — all settings
-/

namespace NodeFencing

/-- How jobs are made, and where configurations are found. -/
structure DispatchSettings where
  /-- The directory below which secrets are mounted. -/
  secretsRoot : String := "/etc/fencing/secrets"
  /-- The condition on labels that config maps with configurations meet. -/
  configSelector : String := "fencing.clusterlabs.org/config=true"
  /-- The entry of such a config map that holds the configuration. -/
  configKey : String := "fencing-config"
  operatorImage : String := "ghcr.io/clusterlabs/fencing-controller:latest"
  driverImages : StringMap String := []
  /-- How often a request with a job is looked at. -/
  jobPollSeconds : Nat := 15
  deriving Repr, DecidableEq, Inhabited

namespace DispatchSettings

/-- What mechanisms have in common. -/
def build (s : DispatchSettings) : BuildSettings where
  secretsRoot := s.secretsRoot
  operatorImage := s.operatorImage
  driverImages := s.driverImages

/-- How long to wait before a request with a job is looked at again. -/
def jobPoll (s : DispatchSettings) : Duration :=
  Duration.ofSeconds s.jobPollSeconds

end DispatchSettings

/-- What happens to the open requests for a node that recovers. -/
inductive RecoveryPolicy where
  /-- They are deleted at once. -/
  | immediate
  /-- They are deleted when the node has been ready for some time. -/
  | afterStable (seconds : Nat)
  /-- They are carried out. -/
  | disabled
  deriving Repr, DecidableEq, Inhabited

/-- How the health of nodes is watched. -/
structure HealthSettings where
  /-- How long nothing may be heard from a node before it counts as failed. -/
  unhealthyAfterSeconds : Nat := 40
  /-- How often all nodes are looked at. -/
  sweepIntervalSeconds : Nat := 15
  /-- The components whose warnings count. -/
  problemSources : List String :=
    ["abrt-notification", "abrt-adaptor", "docker-monitor", "kernel-monitor", "kernel"]
  /-- Whether such a warning is enough to fence a node. -/
  fenceOnProblemEvents : Bool := false
  recovery : RecoveryPolicy := .immediate
  deriving Repr, DecidableEq, Inhabited

namespace HealthSettings

/-- How long nothing may be heard from a node before it counts as failed. -/
def window (s : HealthSettings) : Duration :=
  Duration.ofSeconds s.unhealthyAfterSeconds

/-- The time from one look at all nodes to the next. -/
def sweep (s : HealthSettings) : Duration :=
  Duration.ofSeconds s.sweepIntervalSeconds

end HealthSettings

/-- How writes that fail are repeated. -/
structure RetrySettings where
  initialDelayMs : Nat := 1000
  factor : Float := 1.2
  steps : Nat := 5
  deriving Repr, Inhabited

/-- The attempts and the pauses between them. -/
def RetrySettings.backoff (s : RetrySettings) : Backoff where
  initial := Duration.ofMillis s.initialDelayMs
  factor := s.factor
  steps := s.steps

/-- How a leader is elected. -/
structure LeaderSettings where
  leaseName : String := "fencing-controller-leader"
  /-- How long a lease lasts without being renewed. -/
  leaseDurationSeconds : Nat := 15
  /-- How long a leader leads without success in renewing its lease. -/
  renewDeadlineSeconds : Nat := 10
  renewIntervalSeconds : Nat := 2
  deriving Repr, DecidableEq, Inhabited

namespace LeaderSettings

/-- How long a leader leads without success in renewing its lease. -/
def renewDeadline (s : LeaderSettings) : Duration :=
  Duration.ofSeconds s.renewDeadlineSeconds

/-- The time from one renewal to the next. -/
def renewInterval (s : LeaderSettings) : Duration :=
  Duration.ofSeconds s.renewIntervalSeconds

end LeaderSettings

/-- All settings. -/
structure Settings where
  dispatch : DispatchSettings := {}
  health : HealthSettings := {}
  retry : RetrySettings := {}
  leader : LeaderSettings := {}
  deriving Repr, Inhabited

end NodeFencing
