import NodeFencing.Fault
import NodeFencing.Monitor.Remote
import NodeFencing.Naming

/-!
# Requests and workloads in memory

A store for the monitor.  It refuses to create a request twice.

## Main Definitions

* `MonitorMemory` — what the store holds
* `MonitorMemory.apply` — the effect of a call
* `MonitorMemory.answer` — a call that may meet a fault instead, noted in a log
-/

namespace NodeFencing

/-- The kinds of calls that may meet faults. -/
inductive MonitorCall.Kind where
  | requestsFor
  | createRequest
  | deleteRequest
  | durableWorkloads
  deriving Repr, DecidableEq, Inhabited

/-- What a store in memory holds. -/
structure MonitorMemory where
  requests : List Request := []
  /-- The workloads by the name of their node. -/
  workloads : StringMap (List String) := []
  faults : FaultPlan MonitorCall.Kind := FaultPlan.empty
  /-- The calls that were made, each with its failure. -/
  log : List (MonitorCall × Option TaskError) := []
  clock : Instant := ⟨0, 0⟩
  /-- How long programs have paused. -/
  slept : Duration := {}

namespace MonitorMemory

/-- The effect of a call. -/
def apply (m : MonitorMemory) : (c : MonitorCall) → Except TaskError c.Value × MonitorMemory
  | .requestsFor target =>
    (.ok (m.requests.filter fun r =>
      r.metadata.label? Request.targetLabel == some (labelValue target)), m)
  | .createRequest request =>
    if m.requests.any (·.name == request.name) then (.error (.alreadyExists request.name), m)
    else (.ok (), { m with requests := m.requests ++ [request] })
  | .deleteRequest name =>
    (.ok (), { m with requests := m.requests.filter (·.name != name) })
  | .durableWorkloads node => (.ok ((m.workloads.get? node).getD []), m)

/-- The kind of a call, and what it is about. -/
def subject : MonitorCall → MonitorCall.Kind × String
  | .requestsFor target => (.requestsFor, target)
  | .createRequest request => (.createRequest, request.name)
  | .deleteRequest name => (.deleteRequest, name)
  | .durableWorkloads node => (.durableWorkloads, node)

/-- A call that may meet a fault, noted in the log. -/
def answer (c : MonitorCall) (m : MonitorMemory) : Except TaskError c.Value × MonitorMemory :=
  let (kind, subject) := subject c
  let (fault, faults) := m.faults.next kind
  let m := { m with faults }
  let (a, m) : Except TaskError c.Value × MonitorMemory := match fault.error? subject with
    | some e => (.error e, m)
    | none => m.apply c
  let failure := match a with
    | .error e => some e
    | .ok _ => none
  (a, { m with log := m.log ++ [(c, failure)] })

/-- The store as the surroundings of a program. -/
def surroundings : Program.Surroundings MonitorStore MonitorMemory where
  answer := answer
  time := clock
  wait d m := { m with slept := m.slept + d }

/-- Someone else ends a request. -/
def complete (m : MonitorMemory) (name : String) : MonitorMemory :=
  { m with requests := m.requests.map fun r =>
      if r.name == name then { r with status := some { complete := true } } else r }

end MonitorMemory

end NodeFencing
