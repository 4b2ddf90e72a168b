import NodeFencing.Settings.Basic
import NodeFencing.Text.Character

/-!
# Usable settings

## Main Definitions

* `SettingsFault` — why settings are not usable
* `Settings.fault?` — the first such reason
-/

namespace NodeFencing

/-- Why settings are not usable. -/
inductive SettingsFault where
  | noConfigKey
  | noOperatorImage
  | relativeSecretsRoot (path : String)
  | idle
  | retryImpossible
  /-- A leader has to stop before another replica may see its lease as expired. -/
  | leaderTiming (interval deadline duration : Nat)
  deriving Repr, DecidableEq, Inhabited

/-- The wording of a fault. -/
def SettingsFault.message : SettingsFault → String
  | noConfigKey => "fencing.configKey must not be empty"
  | noOperatorImage => "fencing.operatorImage must be set (or provide OPERATOR_IMAGE)"
  | relativeSecretsRoot path => s!"fencing.secretsMountRoot must be an absolute path, got '{path}'"
  | idle => "fencing.jobPollSeconds and health.sweepIntervalSeconds must be positive"
  | retryImpossible => "retry.steps must be positive and retry.factor at least 1.0"
  | leaderTiming interval deadline duration =>
    s!"leader timing must satisfy 0 < renewIntervalSeconds ({interval}) < renewDeadlineSeconds ({deadline}) < leaseDurationSeconds ({duration})"

/-- Whether the times of a leader keep their order. -/
def LeaderSettings.ordered (s : LeaderSettings) : Bool :=
  0 < s.renewIntervalSeconds && s.renewIntervalSeconds < s.renewDeadlineSeconds
    && s.renewDeadlineSeconds < s.leaseDurationSeconds

/-- The first reason why settings are not usable. -/
def Settings.fault? (s : Settings) : Option SettingsFault :=
  if isBlankText s.dispatch.configKey then some .noConfigKey
  else if isBlankText s.dispatch.operatorImage then some .noOperatorImage
  else if s.dispatch.secretsRoot.toList.head? != some '/' then
    some (.relativeSecretsRoot s.dispatch.secretsRoot)
  else if s.dispatch.jobPollSeconds == 0 || s.health.sweepIntervalSeconds == 0 then some .idle
  else if s.retry.steps == 0 || s.retry.factor < 1.0 then some .retryImpossible
  else if !s.leader.ordered then
    some (.leaderTiming s.leader.renewIntervalSeconds s.leader.renewDeadlineSeconds
      s.leader.leaseDurationSeconds)
  else none

end NodeFencing
