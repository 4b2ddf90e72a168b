import NodeFencing.Monitor.Basic
import NodeFencing.Object.Resource

/-!
# Signals for the monitor

The monitor reacts to one signal after another: to reports about nodes and events, and to
the clock, which makes it look at all nodes that it knows.

A node of a list is looked at as soon as it is listed, but known only when the list is
complete.  Events that are older than the watch do not count.

## Main Definitions

* `Signal` — what reaches the monitor
* `MonitorLoop` — the monitor with the nodes that it knows and the signals to come
* `MonitorLoop.sweep` — look at all nodes
* `MonitorLoop.next?` — react to the next signal
-/

namespace NodeFencing

/-- What reaches the monitor. -/
inductive Signal where
  /-- A report about the nodes. -/
  | node (c : Change Node)
  /-- A report about the events. -/
  | event (c : Change Event)
  /-- A node is to be looked at again. -/
  | look (n : Node)
  deriving Repr, DecidableEq

/-- The monitor with the nodes that it knows. -/
structure MonitorLoop where
  monitor : Monitor
  nodes : List Node := []
  /-- The nodes of a list that is not complete. -/
  listed : List Node := []
  /-- The signals to come. -/
  signals : List Signal := []

namespace MonitorLoop

/-- The node of a name. -/
def node? (l : MonitorLoop) (name : String) : Option Node :=
  l.nodes.find? (·.metadata.nameOrBase == name)

/-- Forget the node of a name. -/
def forget (l : MonitorLoop) (name : String) : MonitorLoop :=
  { l with nodes := l.nodes.filter (·.metadata.nameOrBase != name) }

/-- Know a node. -/
def know (l : MonitorLoop) (n : Node) : MonitorLoop :=
  let name := n.metadata.nameOrBase
  match l.node? name with
  | some _ =>
    { l with nodes := l.nodes.map fun m => if m.metadata.nameOrBase == name then n else m }
  | none => { l with nodes := l.nodes ++ [n] }

/-- A signal has come. -/
def notify (l : MonitorLoop) (s : Signal) : MonitorLoop :=
  { l with signals := l.signals ++ [s] }

/-- Look at all nodes, before anything else. -/
def sweep (l : MonitorLoop) : MonitorLoop :=
  { l with signals := l.nodes.map .look ++ l.signals }

/-- The reaction to a signal, if there is one. -/
def react (l : MonitorLoop) (now : Instant) : Signal → Option Reaction × MonitorLoop
  | .look n => (some (l.monitor.observe n now), l)
  | .node .listing => (none, { l with listed := [] })
  | .node (.listed n) => (some (l.monitor.observe n now), { l with listed := l.listed ++ [n] })
  | .node .settled => (none, { l with nodes := l.listed })
  | .node (.applied n) => (some (l.monitor.observe n now), l.know n)
  | .node (.deleted n) =>
    let name := n.metadata.nameOrBase
    (some (l.monitor.deleted name), l.forget name)
  | .event (.applied e) => (some (l.monitor.problem e (l.node? (e.node?.getD "")) now), l)
  | .event _ => (none, l)

/-- The reaction to the next signal, if there is a signal. -/
def next? (l : MonitorLoop) (now : Instant) : Option (Option Reaction × MonitorLoop) :=
  match l.signals with
  | [] => none
  | s :: rest => some ({ l with signals := rest }.react now s)

end MonitorLoop

end NodeFencing
