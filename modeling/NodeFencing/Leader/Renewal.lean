import NodeFencing.Leader.Elector

/-!
# Keeping the lease

A leader renews its lease at regular ticks.  It leads until a deadline, which is measured
from the beginning of the last attempt that succeeded: for that is the time that other
replicas find in the lease.  An attempt which lasts beyond the deadline does not save it.

Times are measured from any point that stays the same.

## Main Definitions

* `Attempt` — how an attempt to renew the lease goes
* `Attempt.ofResult` — the attempt that ends with some result
* `Renewal` — a leader between two attempts
* `Renewal.attempt` — make an attempt
-/

namespace NodeFencing

/-- How an attempt to renew the lease goes, and how long it takes. -/
inductive Attempt where
  | renewed (took : Duration)
  /-- Another replica, or none, has got the lease meanwhile. -/
  | takenOver (holder : String) (took : Duration)
  /-- It fails for any other reason. -/
  | failed (took : Duration)
  /-- It does not end. -/
  | unanswered
  deriving Repr, DecidableEq, Inhabited

/-- The attempt that ends with some result. -/
def Attempt.ofResult (took : Duration) : Except LeaseError Unit → Attempt
  | .ok () => .renewed took
  | .error (.takenOver holder) => .takenOver holder took
  | .error _ => .failed took

/-- A leader between two attempts. -/
structure Renewal where
  /-- The time from one tick to the next. -/
  interval : Duration
  /-- How long a leader leads without success in renewing its lease. -/
  patience : Duration
  /-- When the last attempt that succeeded began. -/
  lastRenewed : Duration
  nextTick : Duration
  /-- When the last attempt ended. -/
  time : Duration
  deriving Repr, DecidableEq, Inhabited

/-- What becomes of a leader. -/
inductive Tenure where
  | leading (r : Renewal)
  /-- It does not lead any more from some time on. -/
  | ended (cause : LeaseError) (time : Duration)
  deriving Repr, DecidableEq, Inhabited

namespace Renewal

/-- A replica that has just taken the lease. -/
def start (settings : LeaderSettings) (time : Duration) : Renewal where
  interval := settings.renewInterval
  patience := settings.renewDeadline
  lastRenewed := time
  nextTick := time
  time := time

/-- When a leader ceases to lead, unless it renews the lease. -/
def deadline (r : Renewal) : Duration :=
  r.lastRenewed + r.patience

/-- When the next attempt would begin: at the next tick, or at once if that has passed. -/
def wake (r : Renewal) : Duration :=
  if r.nextTick < r.time then r.time else r.nextTick

/-- When the next attempt begins, if the deadline does not come first. -/
def due? (r : Renewal) : Option Duration :=
  if r.wake < r.deadline then some r.wake else none

/-- The end at the deadline. -/
def overdue (r : Renewal) : Tenure :=
  .ended (.overdue r.patience) r.deadline

/-- The leader behind an attempt that ended at some time. -/
def resume (r : Renewal) (time : Duration) : Renewal :=
  { r with nextTick := r.nextTick + r.interval, time }

/-- Make an attempt that goes as it is told. -/
def attempt (r : Renewal) (a : Attempt) : Tenure :=
  match r.due? with
  | none => r.overdue
  | some start =>
    match a with
    | .renewed took =>
      if r.deadline < start + took then r.overdue
      else .leading { r.resume (start + took) with lastRenewed := start }
    | .takenOver holder took =>
      if r.deadline < start + took then r.overdue
      else .ended (.takenOver holder) (start + took)
    | .failed took =>
      if r.deadline ≤ start + took then r.overdue else .leading (r.resume (start + took))
    | .unanswered => r.overdue

end Renewal

end NodeFencing
