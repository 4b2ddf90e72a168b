import NodeFencing.Object.Node

/-!
# Health of nodes

Only a node that is not heard of any more is a case for fencing.  A node that says
itself that it is not ready is still in control.

## Main Definitions

* `NodeHealth` — what is known about a node
* `Node.health` — the health of a node, judged from its condition
-/

namespace NodeFencing

/-- What is known about the health of a node. -/
inductive NodeHealth where
  /-- It is ready, since some time if that is known. -/
  | healthy (since : Option Instant)
  /-- It has not been heard of, but not for long enough. -/
  | suspect (remaining : Duration)
  /-- It has not been heard of for too long. -/
  | failed (since : Instant)
  /-- It says that it is not ready. -/
  | notReady
  /-- Nothing is known. -/
  | unknown
  deriving Repr, DecidableEq, Inhabited

/-- The health of a node.  If it is not known since when a node has not been heard of, then it is
since now. -/
def Node.health (n : Node) (now : Instant) (window : Duration) : NodeHealth :=
  match n.ready? with
  | none => .unknown
  | some ready =>
    if ready.status = "True" then .healthy ready.lastTransition
    else if ready.status = "False" then .notReady
    else
      let since := ready.lastTransition.getD now
      let elapsed := now.since since
      if window < elapsed then .failed since else .suspect (window - elapsed)

end NodeFencing
