import NodeFencing.Object.Meta

/-!
# Kinds of objects

An object belongs to a kind, which determines where a cluster keeps it and how its JSON
begins.  A watch reports all objects of a kind, and then how they change.

## Main Definitions

* `Kind` — a kind of objects
* `Resource` — types of objects that have a kind and a form in JSON
* `Change` — one report about the objects of a kind
-/

namespace NodeFencing

/-- A kind of objects. -/
structure Kind where
  apiVersion : String
  name : String
  /-- The word for many of them, which names their collection. -/
  plural : String
  deriving Repr, DecidableEq

namespace Kind

/-- The path below which a cluster keeps the objects of a kind, in one namespace or in none. -/
def path (k : Kind) (inNamespace : Option String) : String :=
  let group := if k.apiVersion.toList.contains '/' then "/apis/" else "/api/"
  let scope := match inNamespace with
    | some name => "/namespaces/" ++ name
    | none => ""
  group ++ k.apiVersion ++ scope ++ "/" ++ k.plural

end Kind

/-- The objects of a kind. -/
class Resource (α : Type) where
  kind : Kind
  metadata : α → Meta
  decoder : Json.Decoder α
  toJson : α → Json

namespace Resource

/-- The members that begin the JSON of an object. -/
def header (kind : Kind) : List (String × Option Json) :=
  [("apiVersion", some (.string kind.apiVersion)), ("kind", some (.string kind.name))]

/-- The members of an object that have to agree with its kind, if they are there. -/
def headerFields (kind : Kind) : List (Json.Decoder.Field σ) :=
  [Json.Decoder.constant "apiVersion" kind.apiVersion, Json.Decoder.constant "kind" kind.name]

/-- The name of an object, or what its name is generated from. -/
def name [Resource α] (a : α) : String :=
  (metadata a).nameOrBase

end Resource

/-- What a watch reports about the objects of a kind. -/
inductive Change (α : Type) where
  /-- All objects are about to be listed. -/
  | listing
  /-- An object of the list. -/
  | listed (a : α)
  /-- The list is complete. -/
  | settled
  /-- An object is new or different. -/
  | applied (a : α)
  /-- An object is gone. -/
  | deleted (a : α)
  deriving Repr, DecidableEq

end NodeFencing
