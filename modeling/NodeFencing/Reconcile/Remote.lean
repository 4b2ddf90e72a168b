import NodeFencing.Api.Client
import NodeFencing.Method.Job
import NodeFencing.Object.Node
import NodeFencing.Registry
import NodeFencing.TaskError

/-!
# What a request works on

The calls that are made for a request, and how they are carried out over the API of a
cluster.

## Main Definitions

* `RequestCall` — the calls that are made for a request
* `RequestStore` — these calls with their answers
* `RequestCall.remote` — carry out a call in a cluster
-/

namespace NodeFencing

/-- The calls that are made for a request. -/
inductive RequestCall where
  /-- The configurations that are known. -/
  | configs
  /-- The labels of a node; one that does not exist has none. -/
  | nodeLabels (node : String)
  /-- The jobs of a method of a request. -/
  | methodJobs (request method : String)
  | createJob (job : Job)
  /-- The latest revision of a request. -/
  | getRequest (name : String)
  /-- Replace the status of a request.  With a revision, that revision only. -/
  | patchStatus (request : String) (revision : Option String) (status : Status)
  deriving Repr, DecidableEq

/-- What a call answers. -/
def RequestCall.Answer : RequestCall → Type
  | configs => Snapshot
  | nodeLabels _ => Except TaskError (StringMap String)
  | methodJobs .. => Except TaskError (List Job)
  | createJob _ => Except TaskError Job
  | getRequest _ => Except TaskError (Option Request)
  | patchStatus .. => Except TaskError Unit

/-- The calls that are made for a request, with their answers. -/
def RequestStore : Interface where
  Call := RequestCall
  Answer := RequestCall.Answer

namespace RequestStore

/-- A program that works on requests. -/
abbrev Action (α : Type) := Program RequestStore (Except TaskError α)

/-- The configurations in force. -/
def configs : Program RequestStore Snapshot :=
  Program.ask (I := RequestStore) .configs

/-- The labels of a node; those of a node that does not exist are empty. -/
def nodeLabels (node : String) : Action (StringMap String) :=
  Program.ask (I := RequestStore) (.nodeLabels node)

/-- The jobs that carry out a method for a request. -/
def methodJobs (request method : String) : Action (List Job) :=
  Program.ask (I := RequestStore) (.methodJobs request method)

/-- Start a job; the answer is the job as it was stored. -/
def createJob (job : Job) : Action Job :=
  Program.ask (I := RequestStore) (.createJob job)

/-- The request of a name, where it exists. -/
def getRequest (name : String) : Action (Option Request) :=
  Program.ask (I := RequestStore) (.getRequest name)

/-- Replace the status of a request, given the revision that the change rests on. -/
def patchStatus (request : String) (revision : Option String) (status : Status) : Action Unit :=
  Program.ask (I := RequestStore) (.patchStatus request revision status)

end RequestStore

/-! ### In a cluster -/

/-- Carry out a call in a cluster.  The configurations are those of the registry; a node that does
not exist has no labels. -/
def RequestCall.remote (inNamespace : String) (configs : Snapshot) :
    (c : RequestCall) → Program Api.Wire c.Answer
  | .configs => .done configs
  | .nodeLabels node =>
    Api.Exchange.asTask (do
      return match ← Api.get? Node none node with
        | some found => found.labels
        | none => []) none
  | .methodJobs request method =>
    (Api.list Job inNamespace (Api.labelQuery (jobSelector request method))).asTask none
  | .createJob job =>
    (Api.create inNamespace job).asTask (some (.alreadyExists (job.metadata.name.getD "")))
  | .getRequest name => (Api.get? Request inNamespace name).asTask none
  | .patchStatus request revision status =>
    Api.Exchange.asTask
      (do discard <| Api.patchStatus Request inNamespace request (status.patch revision))
      (some (.conflict request))

end NodeFencing
