import NodeFencing.Method.PodPart
import NodeFencing.Object.Job
import NodeFencing.Request.Codec
import NodeFencing.Selector

/-!
# From a method to a job

A method runs as one job, whose pod has a container for each mechanism.  The job is
owned by the request that it works for, and carries labels by which it is found again.

## Main Definitions

* `Method.labels` — the labels of a job
* `jobSelector` — the labels by which the jobs of a method are found
* `Method.buildJob` — the job that carries out a method
-/

namespace NodeFencing

/-! ### Labels -/

/-- The labels that name the request, the configuration and the method of a job. -/
def requestLabel : String := "fencing.clusterlabs.org/request"

@[inherit_doc requestLabel]
def configLabel : String := "fencing.clusterlabs.org/config"

@[inherit_doc requestLabel]
def methodLabel : String := "fencing.clusterlabs.org/method"

/-- The labels of the job that carries out a method. -/
def Method.labels (m : Method) (c : Config) (r : Request) : StringMap String :=
  [("app", "fencing-controller"),
    (configLabel, labelValue c.name),
    (methodLabel, labelValue m.name),
    (requestLabel, labelValue r.name),
    (Request.targetLabel, labelValue r.target)]

/-- The labels by which the jobs of a method of a request are found. -/
def jobLabels (request method : String) : Selector :=
  [(requestLabel, labelValue request), (methodLabel, labelValue method)]

/-- The condition that the jobs of a method of a request meet. -/
def jobSelector (request method : String) : String :=
  (jobLabels request method).text

/-- Whether a job belongs to a method of a request. -/
def Job.isFor (j : Job) (request method : String) : Bool :=
  (jobLabels request method).holds j.metadata.label?

/-! ### Jobs -/

/-- The name of the job that carries out a method of a request. -/
def Request.jobName (r : Request) (method : String) : String :=
  NodeFencing.jobName r.name r.metadata.uid method

/-- The reference by which a request owns its jobs. -/
def Request.owner (r : Request) : Owner where
  apiVersion := Request.kind.apiVersion
  kind := Request.kind.name
  name := r.name
  uid := r.metadata.uid.getD ""
  controller := some true
  blockOwnerDeletion := some true

/-- The containers of mechanisms, the first of which stands at a position. -/
def buildParts (target : String) (operation : Operation) (settings : BuildSettings) :
    Nat → List Mechanism → Except FencingError (List PodPart)
  | _, [] => .ok []
  | index, m :: rest => do
    let part ← m.build index target operation settings
    return part :: (← buildParts target operation settings (index + 1) rest)

/-- The containers of a method.  The first mechanism that has none is the cause why the whole
method has none. -/
def Method.parts (m : Method) (r : Request) (settings : BuildSettings) :
    Except FencingError (List PodPart) :=
  match buildParts r.target r.operation settings 0 m.mechanisms with
  | .ok parts => .ok parts
  | .error cause => .error (.methodAborted m.name cause)

/-- The longest time limit of the mechanisms of a method. -/
def Method.timeoutSeconds? (m : Method) : Option Nat :=
  (m.mechanisms.filterMap (·.timeoutSeconds)).max?

/-- How long the job of a method may take, so that each attempt has the longest time limit of its
mechanisms. -/
def Method.deadlineSeconds? (m : Method) : Option Int :=
  m.timeoutSeconds?.map fun limit => limit * (m.retries + 1)

/-- The job that carries out a method of a configuration for a request. -/
def Method.buildJob (m : Method) (c : Config) (r : Request) (settings : BuildSettings) :
    Except FencingError Job := do
  let parts ← m.parts r settings
  let labels := m.labels c r
  return {
    metadata := {
      name := some (r.jobName m.name)
      inNamespace := r.metadata.inNamespace
      labels := some labels
      owners := some [r.owner] }
    spec := some {
      backoffLimit := some m.retries
      activeDeadlineSeconds := m.deadlineSeconds?
      template := {
        metadata := some { labels := some labels }
        spec := some {
          containers := parts.map (·.container)
          volumes := parts.flatMap (·.volumes)
          restartPolicy := some "OnFailure" } } } }

end NodeFencing
