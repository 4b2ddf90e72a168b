import NodeFencing.Escalation
import NodeFencing.Reconcile.Remote
import NodeFencing.Settings.Basic

/-!
# Working on a request

A request is carried out in passes.  A pass reads where the request stands from its
status and from the jobs that exist, takes at most one step, and writes the status.  So
a pass may be repeated or cut short at any point.

A status is written only over the revision that the pass has read.  A pass that started
from an old revision loses its write; it is repeated once from the latest revision.

## Main Definitions

* `Outcome` — when a request is to be looked at again
* `persist` — write a status
* `observe` — look at the jobs of the method in use
* `pass` — one pass
* `reconcile` — a pass, and another one if the first has lost its write
-/

namespace NodeFencing

/-- When a request is to be looked at again. -/
inductive Outcome where
  /-- When something changes. -/
  | done
  /-- After some time at the latest. -/
  | requeue (after : Duration)
  deriving Repr, DecidableEq, Inhabited

/-- The time before a request goes on when its method could not be built. -/
def escalationDelay : Duration :=
  Duration.ofSeconds 1

/-- A task that works on requests. -/
abbrev RequestTask (α : Type) := Task RequestStore α

/-- A failure for which there is no point in trying again becomes a result. -/
def settled (isFinal : TaskError → Bool) :
    Except TaskError α → Except TaskError (Except TaskError α)
  | .ok a => .ok (.ok a)
  | .error e => if isFinal e then .ok (.error e) else .error e

/-- Write the status of a request over the revision that was read, if it has changed.  A lost write
is not repeated, for it would be lost again. -/
def persist (settings : Settings) (r : Request) (old new : Status) : RequestTask Unit :=
  if old = new then pure ()
  else do
    let write := RequestStore.patchStatus r.name r.metadata.resourceVersion new
    let written ← ExceptT.mk <| Program.retry settings.retry.backoff <|
      write.bind fun answer => .done (settled TaskError.isConflict answer)
    ExceptT.mk (.done written)

/-- Look at the jobs of the method in use, and record the outcome of a job that was dispatched.  A
job that runs although none was recorded is adopted. -/
def observe (name : String) (s : Status) : RequestTask (Status × JobState) :=
  match s.activeMethod with
  | none => return (s, .missing)
  | some method => do
    let jobs ← ExceptT.mk (RequestStore.methodJobs name method)
    let state := methodState jobs
    match s.activeJob, state with
    | none, .running => return ({ s with activeJob := jobs.findSome? (·.metadata.name) }, state)
    | some _, .succeeded =>
      let s := s.record (← Task.now) (some method) .methodSucceeded
      return ({ s with activeJob := none }, state)
    | some _, .failed =>
      let s := s.record (← Task.now) (some method) .methodFailed "" (some "job failed")
      return ({ s with activeJob := none }, state)
    | some _, .missing =>
      let s := s.record (← Task.now) (some method) .methodFailed "" (some "job not found")
      return ({ s with activeJob := none }, state)
    | _, _ => return (s, state)

/-- Note the configuration of a request.  When it replaces another one, the methods start anew. -/
def choose (s : Status) (c : Config) : RequestTask Status :=
  if s.config = some c.name then pure s
  else do
    let s := if s.config.isSome then { s with activeMethod := none, activeJob := none } else s
    return { s with config := some c.name }.record (← Task.now) none .configSelected c.name

/-- Create a job; one that exists is as good. -/
def createJob (settings : Settings) (job : Job) : RequestTask Unit :=
  ExceptT.mk <| Program.retry settings.retry.backoff <|
    (RequestStore.createJob job).bind fun
      | .ok _ => .done (.ok ())
      | .error e => .done (if e.meansExists then .ok () else .error e)

/-- Begin with a method: create its job, and only then say so in the status. -/
def dispatch (settings : Settings) (r : Request) (old : Status) (s : Status) (c : Config)
    (m : Method) : RequestTask Outcome := do
  let s := { s with activeMethod := some m.name, activeJob := none }.record
    (← Task.now) (some m.name) .methodSelected
  match m.buildJob c r settings.dispatch.build with
  | .error e =>
    let s := s.record (← Task.now) (some m.name) .methodFailed "" (some e.message)
    persist settings r old s
    return .requeue escalationDelay
  | .ok job =>
    createJob settings job
    let name := r.jobName m.name
    let s := { s with activeJob := some name }.record
      (← Task.now) (some m.name) .jobDispatched name
    persist settings r old s
    return .requeue settings.dispatch.jobPoll

/-- Take the next step of a request whose configuration is known. -/
def proceed (settings : Settings) (r : Request) (now : Instant) (old : Status) (s : Status)
    (c : Config) : RequestTask Outcome := do
  let (s, state) ← observe r.name s
  let elapsed := now.since (r.validFrom?.getD now)
  match c.nextStep s.activeMethod state elapsed with
  | .wait _ =>
    persist settings r old s
    return .requeue settings.dispatch.jobPoll
  | .delay _ remaining =>
    persist settings r old s
    return .requeue remaining
  | .complete method =>
    persist settings r old (s.finalize (← Task.now) .success ("fenced by " ++ method))
    return .done
  | .exhausted _ =>
    persist settings r old (s.finalize (← Task.now) .givingUp "all methods failed")
    return .done
  | .dispatch _ method => dispatch settings r old s c method

/-- One pass over a request that is open and valid. -/
def advance (settings : Settings) (r : Request) (now : Instant) : RequestTask Outcome := do
  let status := r.status.getD {}
  let labels ← ExceptT.mk (RequestStore.nodeLabels r.target)
  let snapshot ← ExceptT.lift RequestStore.configs
  match snapshot.select status.config r.target labels with
  | .error e =>
    persist settings r status (status.finalize (← Task.now) .noConfig "" (some e.message))
    return .done
  | .ok config => proceed settings r now status (← choose status config) config

/-- One pass over a request. -/
def pass (settings : Settings) (r : Request) (now : Instant) : RequestTask Outcome :=
  if r.isComplete then return .done
  else
    match r.gate? with
    | some gate => if now < gate then return .requeue (gate.since now) else advance settings r now
    | none => advance settings r now

/-- A pass over a copy of a request, which may be old.  If it loses its write, another pass is made
over the latest revision. -/
def reconcile (settings : Settings) (r : Request) (now : Instant) : RequestTask Outcome :=
  ExceptT.mk <| (pass settings r now).run.bind fun
    | .error e =>
      if e.isConflict then
        (RequestStore.getRequest r.name).bind fun
          | .error e => .done (.error e)
          | .ok none => .done (.ok .done)
          | .ok (some latest) => (pass settings latest now).run
      else .done (.error e)
    | .ok outcome => .done (.ok outcome)

end NodeFencing
