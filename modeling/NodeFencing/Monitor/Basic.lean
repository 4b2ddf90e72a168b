import NodeFencing.Monitor.Health
import NodeFencing.Monitor.Remote
import NodeFencing.Naming
import NodeFencing.Object.Event
import NodeFencing.Settings.Basic

/-!
# Watching nodes

The monitor turns signals about nodes into requests.  A node that has failed gets one
request, unless an open one exists.  When a node recovers, its open requests are deleted
if the policy says so; this is done once, and again only after the node was seen in
another state.

## Main Definitions

* `Monitor` — the settings of the monitor, and the nodes whose recovery is settled
* `MonitorAction` — what the monitor has done
* `Monitor.observe` — react to the state of a node
* `Monitor.deleted` — react to the end of a node
* `Monitor.problem` — react to a warning about a node
-/

namespace NodeFencing

/-- What the monitor has done because of a signal. -/
inductive MonitorAction where
  /-- A request of this name was made. -/
  | created (request : String)
  /-- There is an open request. -/
  | alreadyPending
  /-- So many open requests were deleted. -/
  | cancelled (count : Nat)
  /-- The node will have failed after this time. -/
  | suspect (remaining : Duration)
  | none
  deriving Repr, DecidableEq, Inhabited

/-- The settings of the monitor, and the nodes whose recovery is settled. -/
structure Monitor where
  health : HealthSettings := {}
  backoff : Backoff := {}
  /-- The namespace of the requests that it makes. -/
  inNamespace : Option String := none
  settled : List String := []

/-- A task of the monitor. -/
abbrev MonitorTask (α : Type) := Task MonitorStore α

/-- The reaction to a signal, with the monitor as it is afterwards. -/
abbrev Reaction := Program MonitorStore (Except TaskError MonitorAction × Monitor)

namespace Monitor

/-! ### Settled nodes -/

/-- Whether the recovery of a node is settled. -/
def isSettled (m : Monitor) (node : String) : Bool :=
  m.settled.contains node

/-- The recovery of a node is settled. -/
def settle (m : Monitor) (node : String) : Monitor :=
  if m.isSettled node then m else { m with settled := node :: m.settled }

/-- The recovery of a node is not settled any more. -/
def unsettle (m : Monitor) (node : String) : Monitor :=
  { m with settled := m.settled.filter (· != node) }

/-! ### Requests -/

/-- Whether a request is for a node and still open.  Labels of different nodes may be equal. -/
def isOutstanding (node : String) (r : Request) : Bool :=
  r.target == node && !r.isComplete

/-- The open requests for a node. -/
def outstanding (node : String) : MonitorTask (List Request) := do
  let requests ← ExceptT.mk (MonitorStore.requestsFor node)
  return requests.filter (isOutstanding node)

/-- The request for a node that has failed. -/
def newRequest (m : Monitor) (node origin : String) (workloads : List String) (now : Instant) :
    Request where
  metadata := {
    name := some (requestName node now.seconds)
    inNamespace := m.inNamespace
    labels := some [(Request.targetLabel, labelValue node)] }
  target := node
  origin := some origin
  operation := .off
  affectedWorkloads := workloads

/-- Make a request for a node, unless there is an open one.  What runs on the node is only told for
information, so it does not matter if it cannot be found out. -/
def raise (m : Monitor) (node origin : String) (now : Instant) : MonitorTask MonitorAction := do
  if !(← outstanding node).isEmpty then return .alreadyPending
  let workloads ← ExceptT.lift <| (MonitorStore.durableWorkloads node).bind fun
    | .ok workloads => .done workloads
    | .error _ => .done []
  let request := m.newRequest node origin workloads now
  let created ← ExceptT.mk <| Program.retry m.backoff <|
    (MonitorStore.createRequest request).bind fun
      | .ok () => .done (.ok true)
      | .error e => .done (if e.meansExists then .ok false else .error e)
  return if created then .created request.name else .alreadyPending

/-- Delete requests, and tell how many deletions have succeeded. -/
def deleteAll (m : Monitor) : List Request → Program MonitorStore Nat
  | [] => .done 0
  | r :: rest =>
    (Program.retry m.backoff (MonitorStore.deleteRequest r.name)).bind fun deleted =>
      (m.deleteAll rest).bind fun count =>
        .done (match deleted with
          | .ok () => count + 1
          | .error _ => count)

/-- Delete the open requests for a node, as far as possible. -/
def cancel (m : Monitor) (node : String) : MonitorTask MonitorAction := do
  let requests ← outstanding node
  if requests.isEmpty then return .none
  return .cancelled (← ExceptT.lift (m.deleteAll requests))

/-! ### Signals -/

/-- Whether a node that has been ready since some time is to be trusted. -/
def isStable (m : Monitor) (since : Option Instant) (now : Instant) : Bool :=
  match m.health.recovery with
  | .afterStable seconds =>
    Duration.ofSeconds seconds ≤ (match since with
      | some since => now.since since
      | none => {})
  | _ => true

/-- React to a node that is ready.  A failure leaves its recovery open, so that the next signal
tries again. -/
def recovered (m : Monitor) (node : String) (since : Option Instant) (now : Instant) : Reaction :=
  if m.isSettled node then .done (.ok .none, m)
  else if m.health.recovery = .disabled then .done (.ok .none, m.settle node)
  else if !m.isStable since now then .done (.ok .none, m)
  else (m.cancel node).run.bind fun
    | .ok action => .done (.ok action, m.settle node)
    | .error e => .done (.error e, m)

/-- React to the state of a node. -/
def observe (m : Monitor) (node : Node) (now : Instant) : Reaction :=
  let name := node.metadata.nameOrBase
  match node.health now m.health.window with
  | .healthy since => m.recovered name since now
  | .failed since =>
    let m := m.unsettle name
    let origin := "node-health-monitor: Ready=Unknown since " ++ since.text
    (m.raise name origin now).run.bind fun outcome => .done (outcome, m)
  | .suspect remaining => .done (.ok (.suspect remaining), m.unsettle name)
  | .notReady | .unknown => .done (.ok .none, m.unsettle name)

/-- React to the end of a node. -/
def deleted (m : Monitor) (node : String) : Reaction :=
  let m := m.unsettle node
  if m.health.recovery = .disabled then .done (.ok .none, m)
  else (m.cancel node).run.bind fun outcome => .done (outcome, m)

/-- Whether an event is a warning of a component that counts. -/
def heeds (m : Monitor) (e : Event) : Bool :=
  e.type == some "Warning" && m.health.problemSources.contains e.reporter

/-- React to an event.  The node is looked at again, or fenced at once if the settings say so. -/
def problem (m : Monitor) (e : Event) (node : Option Node) (now : Instant) : Reaction :=
  match if m.heeds e then e.node? else none, node with
  | none, _ => .done (.ok .none, m)
  | some name, node =>
    if m.health.fenceOnProblemEvents then
      let origin := e.reporter ++ ": " ++ e.message.getD "problem reported"
      (m.raise name origin now).run.bind fun outcome => .done (outcome, m)
    else
      match node with
      | some node => m.observe node now
      | none => .done (.ok .none, m)

end Monitor

end NodeFencing
