import NodeFencing.StringMap

/-!
# Fencing configurations

A configuration says how the nodes that it selects are fenced: a list of methods to
be tried in order, each made of mechanisms that have to succeed together.

## Main Definitions

* `Driver` — the kind of program behind a mechanism
* `TargetValue` — a parameter whose value depends on the node
* `Mechanism`, `Method`, `Config` — a configuration and its parts
* `Config.selects`, `Config.specificity` — which nodes a configuration is for
-/

namespace NodeFencing

/-! ### Drivers -/

/-- The kind of program behind a mechanism. -/
inductive Driver where
  /-- A fence agent that talks to the management controller of a machine. -/
  | baremetal
  /-- A client that deletes a virtual machine. -/
  | openstack
  /-- A command that only prints its arguments. -/
  | echo
  /-- A program that the mechanism names itself. -/
  | custom
  deriving Repr, DecidableEq, Inhabited

namespace Driver

/-- The name of a driver. -/
def name : Driver → String
  | baremetal => "baremetal"
  | openstack => "openstack"
  | echo => "echo"
  | custom => "custom"

/-- The driver with a name. -/
def named? (name : String) : Option Driver :=
  [baremetal, openstack, echo, custom].find? (·.name == name)

/-- The image that runs a mechanism which names none. -/
def defaultImage? : Driver → Option String
  | baremetal => some "quay.io/beekhof/rhelha-fencing"
  | openstack => some "quay.io/beekhof/openstack-novaclient"
  | echo => some "busybox"
  | custom => none

/-- The command of a mechanism which names none. -/
def defaultCommand (d : Driver) (agent : Option String) : List String :=
  match d with
  | baremetal => ["/sbin/fence_" ++ agent.getD ""]
  | openstack => ["/bin/nova", "delete"]
  | echo => ["echo"]
  | custom => []

end Driver

/-! ### Configurations -/

/-- A parameter whose value depends on the node that is fenced. -/
structure TargetValue where
  field : String := ""
  /-- The value for nodes that have none of their own. -/
  fallback : Option String := none
  /-- The values by the name of the node. -/
  values : StringMap String := []
  deriving Repr, DecidableEq, Inhabited

/-- The value for a node: its own, or else a fallback that is not empty. -/
def TargetValue.lookup (v : TargetValue) (node : String) : Option String :=
  match v.values.get? node with
  | some value => some value
  | none => v.fallback.filter (· != "")

/-- One action against a node. -/
structure Mechanism where
  driver : Driver := .echo
  /-- The fence agent of the baremetal driver. -/
  agent : Option String := none
  image : Option String := none
  command : Option (List String) := none
  /-- How parameters are passed, by name; judged when the mechanism is used. -/
  argumentFormat : String := "cli"
  /-- The flag or variable that holds the name of the node. -/
  passTargetAs : Option String := none
  timeoutSeconds : Option Nat := none
  /-- Parameters that are the same for all nodes. -/
  config : StringMap String := []
  dynamicConfig : List TargetValue := []
  /-- Secrets by the names under which they are known to the program. -/
  secrets : StringMap String := []
  /-- Further environment variables. -/
  env : StringMap String := []
  deriving Repr, DecidableEq, Inhabited

/-- One way to fence a node; it succeeds if all its mechanisms do. -/
structure Method where
  name : String := ""
  /-- How often a failed attempt is repeated. -/
  retries : Int := 1
  /-- How long a request has to be valid before this method is used. -/
  requireAfterSeconds : Option Nat := none
  /-- Whether its success ends the request. -/
  stopOnSuccess : Bool := true
  mechanisms : List Mechanism := []
  deriving Repr, DecidableEq, Inhabited

/-- How the nodes that carry some labels are fenced. -/
structure Config where
  /-- The name of the source that the configuration came from. -/
  name : String := ""
  /-- The labels of the nodes it is for. -/
  nodeSelector : StringMap String := []
  /-- The methods in the order in which they are tried. -/
  methods : List Method := []
  deriving Repr, DecidableEq, Inhabited

namespace Config

/-- Whether a configuration is for a node with these labels. -/
def selects (c : Config) (labels : StringMap String) : Bool :=
  c.nodeSelector.all fun (key, value) => labels.get? key == some value

/-- How many labels a configuration asks for. -/
def specificity (c : Config) : Nat :=
  c.nodeSelector.length

/-- The first method of a name, with its position. -/
def method? (c : Config) (name : String) : Option (Nat × Method) := do
  let index ← c.methods.findIdx? (·.name == name)
  let method ← c.methods[index]?
  return (index, method)

end Config

end NodeFencing
