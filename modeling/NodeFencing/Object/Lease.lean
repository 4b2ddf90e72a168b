import NodeFencing.Object.Resource
import NodeFencing.Width

/-!
# Leases

A lease names the replica that leads.  Its holder has to renew it in time; otherwise it
expires and another replica may take it over.

## Main Definitions

* `LeaseSpec`, `Lease` — a lease
* `Lease.holder?` — the replica that leads
* `Lease.expired` — whether the holder has failed to renew it in time
* `LeaseSpec.claim` — the record of a replica that takes a lease or keeps it
* `LeaseSpec.inMicros`, `Lease.inMicros` — a lease as it is written
-/

namespace NodeFencing

/-- The record of who leads. -/
structure LeaseSpec where
  holder : Option String := none
  /-- How long the lease lasts without being renewed. -/
  durationSeconds : Option Int := none
  /-- When the holder got it. -/
  acquired : Option Instant := none
  renewed : Option Instant := none
  /-- How often the holder has changed. -/
  transitions : Option Int := none
  preferredHolder : Option String := none
  strategy : Option String := none
  deriving Repr, DecidableEq, Inhabited

/-- A lease. -/
structure Lease where
  metadata : Meta := {}
  spec : Option LeaseSpec := none
  deriving Repr, DecidableEq, Inhabited

/-- The replica that holds a lease; the empty name is nobody's. -/
def Lease.holder? (l : Lease) : Option String :=
  (l.spec.bind (·.holder)).filter (· != "")

/-- Whether the record is out of date.  One that does not say when it was renewed, or how long it
lasts, is. -/
def LeaseSpec.expired (s : LeaseSpec) (now : Instant) : Bool :=
  match s.renewed, s.durationSeconds with
  | some renewed, some duration => renewed.plusSeconds duration < now
  | _, _ => true

/-- Whether a lease has run out. -/
def Lease.expired (l : Lease) (now : Instant) : Bool :=
  match l.spec with
  | some spec => spec.expired now
  | none => true

/-- A number of seconds as a lease can hold it. -/
def leaseSeconds (n : Nat) : Int :=
  min n (greatestSigned 32)

/-- The record of a replica that takes a lease, or keeps one that it holds: only a change of the
holder counts as a transition, and starts the time of holding anew. -/
def LeaseSpec.claim (previous : Option LeaseSpec) (holder : String) (durationSeconds : Nat)
    (now : Instant) : LeaseSpec :=
  let earlier := previous.bind (·.holder)
  let transitions := (previous.bind (·.transitions)).getD 0
  let kept := previous.isSome && earlier == some holder
  { holder := some holder
    durationSeconds := some (leaseSeconds durationSeconds)
    acquired := if kept then (previous.bind (·.acquired)) <|> some now else some now
    renewed := some now
    transitions := some (
      if kept then transitions else if previous.isNone then 0 else transitions + 1) }

/-! ### JSON -/

open Json (Decoder)
open Json.Decoder (field instant? int32 optional orDefault record text?)

namespace LeaseSpec

def decoder : Decoder LeaseSpec :=
  record [
    field "holderIdentity" text? fun x s => { s with holder := x },
    field "leaseDurationSeconds" (optional int32) fun x s => { s with durationSeconds := x },
    field "acquireTime" instant? fun x s => { s with acquired := x },
    field "renewTime" instant? fun x s => { s with renewed := x },
    field "leaseTransitions" (optional int32) fun x s => { s with transitions := x },
    field "preferredHolder" text? fun x s => { s with preferredHolder := x },
    field "strategy" text? fun x s => { s with strategy := x }
  ] [] {}

def toJson (s : LeaseSpec) : Json :=
  let time := fun (t : Instant) => Json.string t.textInMicros
  .ofMembers [
    ("acquireTime", s.acquired.map time),
    ("holderIdentity", s.holder.map .string),
    ("leaseDurationSeconds", s.durationSeconds.map .integer),
    ("leaseTransitions", s.transitions.map .integer),
    ("preferredHolder", s.preferredHolder.map .string),
    ("renewTime", s.renewed.map time),
    ("strategy", s.strategy.map .string)]

/-- A record with its times in whole microseconds, as they are written. -/
def inMicros (s : LeaseSpec) : LeaseSpec :=
  { s with
    acquired := s.acquired.map Instant.inMicros
    renewed := s.renewed.map Instant.inMicros }

/-- What is beyond the microseconds is not written. -/
theorem toJson_inMicros (s : LeaseSpec) : s.inMicros.toJson = s.toJson := by
  simp only [toJson, inMicros, Option.map_map, Function.comp_def, Instant.textInMicros_inMicros]

theorem inMicros_inMicros (s : LeaseSpec) : s.inMicros.inMicros = s.inMicros := by
  simp only [inMicros, Option.map_map, Function.comp_def, Instant.inMicros_inMicros]

/-- A time of a record in whole microseconds is left as it is. -/
theorem acquired_of_inMicros {s : LeaseSpec} (h : s.inMicros = s) :
    s.acquired.map Instant.inMicros = s.acquired :=
  congrArg acquired h

end LeaseSpec

namespace Lease

def kind : Kind := ⟨"coordination.k8s.io/v1", "Lease", "leases"⟩

def decoder : Decoder Lease :=
  record (Resource.headerFields kind ++ [
    field "metadata" (orDefault {} Meta.decoder) fun x l => { l with metadata := x },
    field "spec" (optional LeaseSpec.decoder) fun x l => { l with spec := x }
  ]) [] {}

def toJson (l : Lease) : Json :=
  .ofMembers (Resource.header kind ++ [
    ("metadata", some l.metadata.toJson), ("spec", l.spec.map LeaseSpec.toJson)])

/-- A lease with its times in whole microseconds, as they are written. -/
def inMicros (l : Lease) : Lease :=
  { l with spec := l.spec.map LeaseSpec.inMicros }

theorem toJson_inMicros (l : Lease) : l.inMicros.toJson = l.toJson := by
  simp only [toJson, inMicros, Option.map_map, Function.comp_def, LeaseSpec.toJson_inMicros]

@[simp] theorem holder?_inMicros (l : Lease) : l.inMicros.holder? = l.holder? := by
  simp only [holder?, inMicros, Option.bind_map]
  rfl

instance : Resource Lease where
  kind := kind
  metadata := Lease.metadata
  decoder := decoder
  toJson := toJson

end Lease

end NodeFencing
