import NodeFencing.Object.Condition
import NodeFencing.Object.Resource

/-!
# Nodes

## Main Definitions

* `Node` — a node of the cluster with its conditions
* `Node.ready?` — what is known about its readiness
-/

namespace NodeFencing

/-- A node of the cluster. -/
structure Node where
  metadata : Meta := {}
  conditions : List Condition := []
  deriving Repr, DecidableEq, Inhabited

namespace Node

/-- The condition that tells whether a node is ready. -/
def ready? (n : Node) : Option Condition :=
  conditionOf? "Ready" n.conditions

/-- The labels of a node. -/
def labels (n : Node) : StringMap String :=
  n.metadata.labels.getD []

/-! ### JSON -/

open Json (Decoder)
open Json.Decoder (field listOrNull orDefault record)

def kind : Kind := ⟨"v1", "Node", "nodes"⟩

def decoder : Decoder Node :=
  record (Resource.headerFields kind ++ [
    field "metadata" (orDefault {} Meta.decoder) fun x n => { n with metadata := x },
    field "status" (orDefault [] (record [
      field "conditions" (listOrNull Condition.decoder) fun x _ => x] [] []))
      fun x n => { n with conditions := x }
  ]) [] {}

def toJson (n : Node) : Json :=
  .ofMembers (Resource.header kind ++ [
    ("metadata", some n.metadata.toJson),
    ("status", (Json.ofList? Condition.toJson n.conditions).map fun conditions =>
      .object [("conditions", conditions)])])

instance : Resource Node where
  kind := kind
  metadata := Node.metadata
  decoder := decoder
  toJson := toJson

end Node

end NodeFencing
