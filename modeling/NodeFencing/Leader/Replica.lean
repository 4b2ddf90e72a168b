import NodeFencing.Api.Client
import NodeFencing.Api.Script
import NodeFencing.Leader.Elector
import NodeFencing.Leader.Renewal

/-!
# A replica over time

A replica waits for the lease, leads while it can renew it, and gives it back.  What the
cluster answers follows a script, and no time passes except by waiting.

## Main Definitions

* `Elector.remote` — carry out a call in a cluster
* `Replica` — a replica at some time
* `Replica.acquire`, `Replica.release` — take the lease, and give it back
* `Replica.lead` — let time pass while the replica leads
-/

namespace NodeFencing

/-- Carry out a call in a cluster. -/
def Elector.remote (e : Elector) (c : LeaseCall) : Program Api.Wire (LeaseStore.Answer c) :=
  match c with
  | .find => (Api.get? Lease e.inNamespace e.settings.leaseName).run
  | .read => (Api.get Lease e.inNamespace e.settings.leaseName).run
  | .create lease => (Api.create e.inNamespace lease).run
  | .replace lease => (Api.replace e.inNamespace e.settings.leaseName lease).run

/-- A replica at some time. -/
structure Replica where
  elector : Elector
  script : Api.Script := {}
  time : Duration := {}
  /-- What has become of it since it took the lease. -/
  tenure : Option Tenure := none
  deriving Inhabited

namespace Replica

/-- Do something about the lease; none if there is no result before a limit. -/
def perform (r : Replica) (limit : Duration) (p : Program LeaseStore α) : Option α × Replica :=
  let (result, elapsed, script) := r.script.runWithin limit (p.translate r.elector.remote)
  (result, { r with script, time := r.time + elapsed })

/-- Try once to take the lease. -/
def tryAcquire (r : Replica) (limit : Duration) : Option (Except LeaseError Unit) × Replica :=
  r.perform limit r.elector.tryAcquire.run

/-- How many attempts to take the lease begin before a limit. -/
def attemptsWithin (limit interval : Duration) : Nat :=
  limit.nanos / interval.nanos + 1

/-- Try to take the lease until a limit; whether it was taken.  From then on the replica leads. -/
def acquire (r : Replica) (limit : Duration) : Bool × Replica :=
  let settings := r.elector.settings
  let attempts := attemptsWithin limit settings.renewInterval
  match r.perform limit (r.elector.acquire attempts) with
  | (some true, r) =>
    (true, { r with tenure := some (.leading (Renewal.start settings r.time)) })
  | (_, r) => (false, r)

/-- How an attempt to renew the lease goes, if every reply comes at once. -/
def attempt : Program.Stop Api.Wire (Except LeaseError Unit) → Attempt
  | .finished result => .ofResult {} result
  | .paused d _ => .failed d
  | .stuck => .unanswered

/-- Make the attempts that begin before a time, and at most a number of them. -/
def renewUntil (e : Elector) (limit : Duration) :
    (attempts : Nat) → Renewal → Api.Script → Tenure × Api.Script
  | 0, r, s => (.leading r, s)
  | attempts + 1, r, s =>
    match r.due? with
    | none => (r.overdue, s)
    | some start =>
      if start < limit then
        let (stop, s) := s.advance (e.renew.run.translate e.remote)
        match r.attempt (attempt stop) with
        | .leading r => renewUntil e limit attempts r s
        | ended => (ended, s)
      else (.leading r, s)

/-- Let time pass while the replica leads, until it ceases to lead or until a limit.  What it ceases
to lead for is the result. -/
def lead (r : Replica) (limit : Duration) : Option LeaseError × Replica :=
  let stop := r.time + limit
  match r.tenure with
  | none => (none, { r with time := stop })
  | some tenure =>
    let (tenure, script) := match tenure with
      | .leading renewal =>
        let attempts := attemptsWithin limit renewal.interval + 1
        renewUntil r.elector stop attempts renewal r.script
      | ended => (ended, r.script)
    let r := { r with script, tenure := some tenure }
    match tenure with
    | .ended cause time =>
      if time < stop then (some cause, { r with time := if time < r.time then r.time else time })
      else (none, { r with time := stop })
    | .leading _ => (none, { r with time := stop })

/-- Let time pass, whether the replica leads or not. -/
def wait (r : Replica) (d : Duration) : Replica :=
  { (r.lead d).2 with time := r.time + d }

/-- Stop leading, and give the lease back. -/
def release (r : Replica) (limit : Duration) : Option (Except LeaseError Unit) × Replica :=
  { r with tenure := none }.perform limit r.elector.release.run

end Replica

end NodeFencing
