import NodeFencing.Fault
import NodeFencing.Reconcile.Remote
import NodeFencing.Width

/-!
# Requests in memory

A store that holds one request, its jobs and the nodes.  It refuses to write a status
over another revision than the one named, and to create a job twice.

## Main Definitions

* `RequestMemory` — what the store holds
* `RequestMemory.apply` — the effect of a call
* `RequestMemory.answer` — a call that may meet a fault instead, noted in a log
-/

namespace NodeFencing

/-- The kinds of calls that may meet faults. -/
inductive RequestCall.Kind where
  | nodeLabels
  | methodJobs
  | createJob
  | getRequest
  | patchStatus
  deriving Repr, DecidableEq, Inhabited

/-- What a store in memory holds. -/
structure RequestMemory where
  registry : Registry := {}
  nodes : StringMap (StringMap String) := []
  jobs : List Job := []
  /-- The latest revision of the request, unless it is deleted. -/
  latest : Option Request := none
  faults : FaultPlan RequestCall.Kind := FaultPlan.empty
  /-- The calls that were made, each with its failure. -/
  log : List (RequestCall × Option TaskError) := []
  clock : Instant := ⟨0, 0⟩
  /-- How long programs have paused. -/
  slept : Duration := {}

/-- The number that follows a revision; anything that is no number counts as zero. -/
def nextRevision (revision : Option String) : String :=
  let digits := match (revision.getD "").toList with
    | '+' :: rest => rest
    | digits => digits
  let n := ((natOfDigits? 10 digits).filter fun (n : Nat) => fitsUnsigned 64 n).getD 0
  String.ofList (digitsOfNat (n + 1))

/-- The next revision of a request. -/
def Request.touch (r : Request) : Request :=
  { r with metadata := { r.metadata with
    resourceVersion := some (nextRevision r.metadata.resourceVersion) } }

namespace RequestMemory

/-! ### Calls -/

/-- The effect of a call. -/
def apply (m : RequestMemory) : (c : RequestCall) → c.Answer × RequestMemory
  | .configs => (m.registry.snapshot, m)
  | .nodeLabels node => (.ok ((m.nodes.get? node).getD []), m)
  | .methodJobs request method => (.ok (m.jobs.filter (·.isFor request method)), m)
  | .createJob job =>
    if m.jobs.any (·.metadata.name == job.metadata.name) then
      (.error (.alreadyExists (job.metadata.name.getD "")), m)
    else (.ok job, { m with jobs := m.jobs ++ [job] })
  | .getRequest _ => (.ok m.latest, m)
  | .patchStatus request revision status =>
    match m.latest with
    | none => (.ok (), m)
    | some r =>
      if revision.isSome && revision != r.metadata.resourceVersion then
        (.error (.conflict request), m)
      else (.ok (), { m with latest := some { r.touch with status := some status } })

/-- The kind of a call that may meet faults, and what it is about. -/
def subject? : RequestCall → Option (RequestCall.Kind × String)
  | .configs => none
  | .nodeLabels node => some (.nodeLabels, node)
  | .methodJobs request _ => some (.methodJobs, request)
  | .createJob job => some (.createJob, job.metadata.name.getD "")
  | .getRequest name => some (.getRequest, name)
  | .patchStatus request .. => some (.patchStatus, request)

/-- The answer of a call that fails. -/
def failed (e : TaskError) : (c : RequestCall) → c.Answer
  | .configs => []
  | .nodeLabels _ | .methodJobs .. | .createJob _ | .getRequest _ | .patchStatus .. => .error e

/-- The failure in an answer. -/
def failure? : (c : RequestCall) → c.Answer → Option TaskError
  | .configs, _ => none
  | .nodeLabels _, a | .methodJobs .., a | .createJob _, a | .getRequest _, a
  | .patchStatus .., a =>
    match a with
    | .error e => some e
    | .ok _ => none

/-- A call that may meet a fault, noted in the log. -/
def answer (c : RequestCall) (m : RequestMemory) : c.Answer × RequestMemory :=
  match subject? c with
  | none => m.apply c
  | some (kind, subject) =>
    let (fault, faults) := m.faults.next kind
    let m := { m with faults }
    let (a, m) := match fault.error? subject with
      | some e => (failed e c, m)
      | none => m.apply c
    (a, { m with log := m.log ++ [(c, failure? c a)] })

/-- The store as the surroundings of a program. -/
def surroundings : Program.Surroundings RequestStore RequestMemory where
  answer := answer
  time := clock
  wait d m := { m with slept := m.slept + d }

/-! ### Changes from outside -/

/-- Change the latest revision of the request, which gives a new one. -/
def modify (m : RequestMemory) (change : Request → Request) : RequestMemory :=
  { m with latest := m.latest.map fun r => change r.touch }

/-- Change the status of the jobs of a method of a request. -/
def setJobStatus (m : RequestMemory) (request method : String) (status : Option JobStatus) :
    RequestMemory :=
  { m with jobs := m.jobs.map fun j => if j.isFor request method then { j with status } else j }

/-- Delete the jobs of a method of a request. -/
def deleteJobs (m : RequestMemory) (request method : String) : RequestMemory :=
  { m with jobs := m.jobs.filter fun j => !j.isFor request method }

end RequestMemory

end NodeFencing
