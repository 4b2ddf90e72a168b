import NodeFencing.Api.Message
import NodeFencing.Object.Lease
import NodeFencing.Program
import NodeFencing.Settings.Basic

/-!
# Contending for the lease

Of several replicas the one that holds the lease leads.  A replica takes the lease if it
is free, expired or its own; a holder renews it, and gives it back in the end.  Every
write is made over the revision that was read, so that of several writers one wins.

## Main Definitions

* `LeaseCall`, `LeaseStore` — the calls that a replica makes about the lease, and their answers
* `LeaseError` — why a replica does not lead
* `Elector` — a replica that contends for the lease
* `Elector.tryAcquire`, `Elector.renew`, `Elector.release` — take, keep and give back the lease
* `Elector.acquire` — try to take it again and again
-/

namespace NodeFencing

/-! ### Calls -/

/-- The calls that a replica makes about the lease. -/
inductive LeaseCall where
  /-- The lease, if it exists. -/
  | find
  /-- The lease, which has to exist. -/
  | read
  | create (lease : Lease)
  /-- Replace the lease, if it still has the revision that is given with it. -/
  | replace (lease : Lease)
  deriving Repr, DecidableEq

/-- What a call answers. -/
def LeaseCall.Value : LeaseCall → Type
  | find => Option Lease
  | read => Lease
  | create _ => Lease
  | replace _ => Lease

/-- The calls that a replica makes about the lease, with their answers. -/
def LeaseStore : Interface where
  Call := LeaseCall
  Answer c := Except ApiError c.Value

/-! ### Replicas -/

/-- Why a replica does not lead. -/
inductive LeaseError where
  | api (e : ApiError)
  /-- Another replica holds the lease. -/
  | held (holder : String)
  /-- Another replica, or none, has got the lease meanwhile. -/
  | takenOver (holder : String)
  /-- The lease was not renewed in time. -/
  | overdue (deadline : Duration)
  deriving Repr, DecidableEq, Inhabited

/-- The text of a whole number of seconds. -/
def Duration.secondsText (d : Duration) : String :=
  if d.nanos = 0 then "0ns" else toString d.seconds ++ "s"

/-- The wording of a failure. -/
def LeaseError.message : LeaseError → String
  | api _ => "Kubernetes API error"
  | held holder => "Lease is held by another holder: " ++ holder
  | takenOver holder => "Lease taken over by " ++ holder
  | overdue deadline => "Lease not renewed within " ++ deadline.secondsText

/-- A replica that contends for the lease. -/
structure Elector where
  /-- The namespace of the lease. -/
  inNamespace : String
  /-- The name of the replica. -/
  holder : String
  settings : LeaderSettings := {}
  deriving Repr, DecidableEq, Inhabited

/-- A conversation about the lease. -/
abbrev LeaseTask (α : Type) := ExceptT LeaseError (Program LeaseStore) α

namespace Elector

/-- Make a call. -/
def ask (c : LeaseCall) : LeaseTask c.Value :=
  ExceptT.mk <| Program.call (I := LeaseStore) c fun answer => .done (answer.mapError .api)

/-- The lease as it is first created. -/
def newLease (e : Elector) (now : Instant) : Lease where
  metadata := { name := some e.settings.leaseName }
  spec := some (LeaseSpec.claim none e.holder e.settings.leaseDurationSeconds now)

/-- A lease that this replica takes over. -/
def claimed (e : Elector) (lease : Lease) (now : Instant) : Lease :=
  { lease with
    spec := some (LeaseSpec.claim lease.spec e.holder e.settings.leaseDurationSeconds now) }

/-- A lease that this replica renews. -/
def renewed (e : Elector) (lease : Lease) (now : Instant) : Lease :=
  { lease with spec := lease.spec.map fun spec =>
      { spec with
        renewed := some now
        durationSeconds := some (leaseSeconds e.settings.leaseDurationSeconds) } }

/-- A lease that its holder gives back. -/
def released (lease : Lease) : Lease :=
  { lease with spec := lease.spec.map fun spec => { spec with holder := none, renewed := none } }

/-- Write a lease over the revision that was read. -/
def write (lease : Lease) : LeaseTask Unit := do
  discard <| ask (.replace lease)

/-- Whether another replica holds a lease that has not run out. -/
def isHeldByOther (e : Elector) (lease : Lease) (now : Instant) : Bool :=
  let current := lease.holder?.getD ""
  current != e.holder && !current.isEmpty && !lease.expired now

/-- Take the lease: create it, or take it over if it is free, expired or one's own. -/
def tryAcquire (e : Elector) : LeaseTask Unit := do
  let now ← ExceptT.lift Program.now
  match ← ask .find with
  | none => discard <| ask (.create (e.newLease now))
  | some lease =>
    if e.isHeldByOther lease now then throw (.held (lease.holder?.getD ""))
    write (e.claimed lease now)

/-- Renew the lease, as long as it is one's own. -/
def renew (e : Elector) : LeaseTask Unit := do
  let lease ← ask .read
  if lease.holder? ≠ some e.holder then throw (.takenOver (lease.holder?.getD "nobody"))
  write (e.renewed lease (← ExceptT.lift Program.now))

/-- Give the lease back, if it is still one's own. -/
def release (e : Elector) : LeaseTask Unit := do
  let lease ← ask .read
  if lease.holder? = some e.holder then write (released lease)

/-- Try to take the lease a number of times, with pauses between; whether it was taken. -/
def acquire (e : Elector) : (attempts : Nat) → Program LeaseStore Bool
  | 0 => .done false
  | attempts + 1 => e.tryAcquire.run.bind fun
    | .ok () => .done true
    | .error _ => .pause e.settings.renewInterval (e.acquire attempts)

end Elector

end NodeFencing
