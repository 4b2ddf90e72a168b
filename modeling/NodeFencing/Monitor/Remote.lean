import NodeFencing.Api.Client
import NodeFencing.Naming
import NodeFencing.Object.Pod
import NodeFencing.Request.Codec
import NodeFencing.Selector
import NodeFencing.TaskError

/-!
# What the monitor works on

The calls of the monitor, and how they are carried out over the API of a cluster.

## Main Definitions

* `MonitorCall` — the calls that the monitor makes
* `MonitorStore` — these calls with their answers
* `MonitorCall.remote` — carry out a call in a cluster
-/

namespace NodeFencing

/-- The calls that the monitor makes. -/
inductive MonitorCall where
  /-- The requests whose label names a node. -/
  | requestsFor (target : String)
  | createRequest (request : Request)
  /-- Delete a request; it does not matter whether it exists. -/
  | deleteRequest (name : String)
  /-- The pods on a node that have storage which outlives them. -/
  | durableWorkloads (node : String)
  deriving Repr, DecidableEq

/-- What a call answers. -/
def MonitorCall.Value : MonitorCall → Type
  | requestsFor _ => List Request
  | createRequest _ => Unit
  | deleteRequest _ => Unit
  | durableWorkloads _ => List String

/-- The calls that the monitor makes, with their answers. -/
def MonitorStore : Interface where
  Call := MonitorCall
  Answer c := Except TaskError c.Value

namespace MonitorStore

/-- A program that watches nodes. -/
abbrev Action (α : Type) := Program MonitorStore (Except TaskError α)

/-- The requests that aim at a node. -/
def requestsFor (target : String) : Action (List Request) :=
  Program.ask (I := MonitorStore) (.requestsFor target)

/-- Ask for a node to be fenced. -/
def createRequest (request : Request) : Action Unit :=
  Program.ask (I := MonitorStore) (.createRequest request)

/-- Withdraw the request of a name. -/
def deleteRequest (name : String) : Action Unit :=
  Program.ask (I := MonitorStore) (.deleteRequest name)

/-- The workloads on a node that hold claims on storage. -/
def durableWorkloads (node : String) : Action (List String) :=
  Program.ask (I := MonitorStore) (.durableWorkloads node)

end MonitorStore

/-! ### In a cluster -/

/-- How a pod is told about. -/
def Pod.displayName (p : Pod) : String :=
  p.metadata.inNamespace.getD "" ++ "/" ++ p.metadata.nameOrBase

/-- Delete a request; one that does not exist is as good as deleted. -/
def dropRequest (inNamespace name : String) : Program Api.Wire (Except TaskError Unit) :=
  (Api.delete Request inNamespace name).run.bind fun
    | .ok () | .error (.refused 404) => .done (.ok ())
    | .error e => .done (.error (.api e))

/-- Carry out a call in a cluster. -/
def MonitorCall.remote (inNamespace : String) :
    (c : MonitorCall) → Program Api.Wire (Except TaskError c.Value)
  | .requestsFor target =>
    let selector := Selector.text [(Request.targetLabel, labelValue target)]
    (Api.list Request inNamespace (Api.labelQuery selector)).asTask none
  | .createRequest request =>
    Api.Exchange.asTask (do discard <| Api.create inNamespace request)
      (some (.alreadyExists request.name))
  | .deleteRequest name => dropRequest inNamespace name
  | .durableWorkloads node =>
    let selector := Selector.text [("spec.nodeName", node)]
    Api.Exchange.asTask (do
      let pods ← Api.list Pod none (Api.fieldQuery selector)
      return (pods.filter (·.mountsClaims)).map Pod.displayName) none

end NodeFencing
