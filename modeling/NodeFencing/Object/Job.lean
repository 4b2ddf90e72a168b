import NodeFencing.Object.Condition
import NodeFencing.Object.Pod

/-!
# Jobs

A job runs the containers of one pod until all of them succeed, a limited number of
times.

## Main Definitions

* `JobSpec`, `JobStatus`, `Job` — a job and what is known about its course
* `JobState` — how far a job has come
* `Job.state` — the state of one job
* `methodState` — the state of several jobs that do the same work
-/

namespace NodeFencing

/-- What a job is to do. -/
structure JobSpec where
  /-- How often a failed attempt is repeated. -/
  backoffLimit : Option Int := none
  activeDeadlineSeconds : Option Int := none
  template : PodTemplate := {}
  deriving Repr, DecidableEq, Inhabited

/-- What is known about the course of a job. -/
structure JobStatus where
  conditions : Option (List Condition) := none
  /-- How many of its pods run, have succeeded and have failed. -/
  active : Option Int := none
  succeeded : Option Int := none
  failed : Option Int := none
  deriving Repr, DecidableEq, Inhabited

/-- A job. -/
structure Job where
  metadata : Meta := {}
  spec : Option JobSpec := none
  status : Option JobStatus := none
  deriving Repr, DecidableEq, Inhabited

/-! ### States -/

/-- How far a job has come. -/
inductive JobState where
  | running
  | succeeded
  | failed
  /-- There is no job. -/
  | missing
  deriving Repr, DecidableEq, Inhabited

namespace JobState

/-- The name of a state. -/
def name : JobState → String
  | running => "Running"
  | succeeded => "Succeeded"
  | failed => "Failed"
  | missing => "Missing"

end JobState

/-- What a condition says about the end of a job. -/
def Condition.outcome? (c : Condition) : Option JobState :=
  if c.status != "True" then none
  else if c.type == "Complete" then some .succeeded
  else if c.type == "Failed" then some .failed
  else none

/-- The state that a status shows.  The first condition about the end of the job decides; without
one, the numbers of pods do.  While pods are active, failed ones may still be replaced. -/
def JobStatus.state (s : JobStatus) : JobState :=
  match (s.conditions.getD []).findSome? Condition.outcome? with
  | some outcome => outcome
  | none =>
    if 0 < s.succeeded.getD 0 then .succeeded
    else if 0 < s.failed.getD 0 && s.active.getD 0 == 0 then .failed
    else .running

/-- The state of a job; one without a status has just been created. -/
def Job.state (j : Job) : JobState :=
  match j.status with
  | some status => status.state
  | none => .running

/-- The state of jobs that do the same work: one success is enough, and as long as one of them runs
there may be a success. -/
def methodState (jobs : List Job) : JobState :=
  if jobs.isEmpty then .missing
  else
    let states := jobs.map Job.state
    if states.contains .succeeded then .succeeded
    else if states.contains .running then .running
    else .failed

/-! ### JSON -/

open Json (Decoder)
open Json.Decoder (field optional orDefault list record)

namespace JobStatus

def decoder : Decoder JobStatus :=
  record [
    field "conditions" (optional (list Condition.decoder)) fun x s => { s with conditions := x },
    field "active" (optional Decoder.int32) fun x s => { s with active := x },
    field "succeeded" (optional Decoder.int32) fun x s => { s with succeeded := x },
    field "failed" (optional Decoder.int32) fun x s => { s with failed := x }
  ] [] {}

def toJson (s : JobStatus) : Json :=
  .ofMembers [
    ("active", s.active.map .integer),
    ("conditions", s.conditions.map fun cs => .array (cs.map Condition.toJson)),
    ("failed", s.failed.map .integer), ("succeeded", s.succeeded.map .integer)]

end JobStatus

namespace JobSpec

def decoder : Decoder JobSpec :=
  record [
    field "backoffLimit" (optional Decoder.int32) fun x s => { s with backoffLimit := x },
    field "activeDeadlineSeconds" (optional Decoder.int64) fun x s =>
      { s with activeDeadlineSeconds := x },
    field "template" (orDefault {} PodTemplate.decoder) fun x s => { s with template := x }
  ] [] {}

def toJson (s : JobSpec) : Json :=
  .ofMembers [
    ("activeDeadlineSeconds", s.activeDeadlineSeconds.map .integer),
    ("backoffLimit", s.backoffLimit.map .integer),
    ("template", some s.template.toJson)]

end JobSpec

namespace Job

def kind : Kind := ⟨"batch/v1", "Job", "jobs"⟩

def decoder : Decoder Job :=
  record (Resource.headerFields kind ++ [
    field "metadata" (orDefault {} Meta.decoder) fun x j => { j with metadata := x },
    field "spec" (optional JobSpec.decoder) fun x j => { j with spec := x },
    field "status" (optional JobStatus.decoder) fun x j => { j with status := x }
  ]) [] {}

def toJson (j : Job) : Json :=
  .ofMembers (Resource.header kind ++ [
    ("metadata", some j.metadata.toJson), ("spec", j.spec.map JobSpec.toJson),
    ("status", j.status.map JobStatus.toJson)])

instance : Resource Job where
  kind := kind
  metadata := Job.metadata
  decoder := decoder
  toJson := toJson

end Job

end NodeFencing
