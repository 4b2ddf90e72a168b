import NodeFencing.Json.Decode

/-!
# Metadata of objects

Every object of a cluster carries metadata: its name, its labels, the revision at which
it was read and the objects that own it.

## Main Definitions

* `Owner` — a reference to an owner
* `Meta` — the metadata of an object
* `Meta.nameOrBase` — the name, or what a name is generated from
-/

namespace NodeFencing

/-- A reference to the object that owns another one.  The owned object is deleted with it. -/
structure Owner where
  apiVersion : String := ""
  kind : String := ""
  name : String := ""
  uid : String := ""
  controller : Option Bool := none
  blockOwnerDeletion : Option Bool := none
  deriving Repr, DecidableEq, Inhabited

/-- The metadata of an object. -/
structure Meta where
  name : Option String := none
  /-- What the cluster generates a name from. -/
  generateName : Option String := none
  inNamespace : Option String := none
  uid : Option String := none
  /-- The revision at which the object was read. -/
  resourceVersion : Option String := none
  generation : Option Int := none
  creationTimestamp : Option Instant := none
  deletionTimestamp : Option Instant := none
  deletionGracePeriodSeconds : Option Int := none
  labels : Option (StringMap String) := none
  annotations : Option (StringMap String) := none
  finalizers : Option (List String) := none
  owners : Option (List Owner) := none
  selfLink : Option String := none
  deriving Repr, DecidableEq, Inhabited

namespace Meta

/-- The name of an object, or what its name is generated from, or nothing. -/
def nameOrBase (m : Meta) : String :=
  (m.name <|> m.generateName).getD ""

/-- The value of a label. -/
def label? (m : Meta) (key : String) : Option String :=
  (m.labels.getD []).get? key

end Meta

/-! ### JSON -/

open Json (Decoder)
open Json.Decoder (dictionary field flag? instant? list optional record text text?)

namespace Owner

/-- Read a reference. -/
def decoder : Decoder Owner :=
  record [
    field "apiVersion" text fun x o => { o with apiVersion := x },
    field "kind" text fun x o => { o with kind := x },
    field "name" text fun x o => { o with name := x },
    field "uid" text fun x o => { o with uid := x },
    field "controller" flag? fun x o => { o with controller := x },
    field "blockOwnerDeletion" flag? fun x o => { o with blockOwnerDeletion := x }
  ] [] {}

/-- Write a reference. -/
def toJson (o : Owner) : Json :=
  Json.ofMembers [
    ("apiVersion", some (.string o.apiVersion)),
    ("blockOwnerDeletion", o.blockOwnerDeletion.map .bool),
    ("controller", o.controller.map .bool),
    ("kind", some (.string o.kind)),
    ("name", some (.string o.name)),
    ("uid", some (.string o.uid))]

end Owner

namespace Meta

/-- Read metadata. -/
def decoder : Decoder Meta :=
  let number := optional Decoder.int64
  let texts := optional (list Decoder.string)
  let map := optional (dictionary Decoder.string)
  record [
    field "name" text? fun x m => { m with name := x },
    field "generateName" text? fun x m => { m with generateName := x },
    field "namespace" text? fun x m => { m with inNamespace := x },
    field "uid" text? fun x m => { m with uid := x },
    field "resourceVersion" text? fun x m => { m with resourceVersion := x },
    field "generation" number fun x m => { m with generation := x },
    field "creationTimestamp" instant? fun x m => { m with creationTimestamp := x },
    field "deletionTimestamp" instant? fun x m => { m with deletionTimestamp := x },
    field "deletionGracePeriodSeconds" number fun x m =>
      { m with deletionGracePeriodSeconds := x },
    field "labels" map fun x m => { m with labels := x },
    field "annotations" map fun x m => { m with annotations := x },
    field "finalizers" texts fun x m => { m with finalizers := x },
    field "ownerReferences" (optional (list Owner.decoder))
      fun x m => { m with owners := x },
    field "selfLink" text? fun x m => { m with selfLink := x }
  ] [] {}

/-- Write metadata; what is absent is left out. -/
def toJson (m : Meta) : Json :=
  Json.ofMembers [
    ("annotations", m.annotations.map Json.ofStringMap),
    ("creationTimestamp", m.creationTimestamp.map fun t => .string t.textInSeconds),
    ("deletionGracePeriodSeconds", m.deletionGracePeriodSeconds.map .integer),
    ("deletionTimestamp", m.deletionTimestamp.map fun t => .string t.textInSeconds),
    ("finalizers", m.finalizers.map Json.strings),
    ("generateName", m.generateName.map .string),
    ("generation", m.generation.map .integer),
    ("labels", m.labels.map Json.ofStringMap),
    ("name", m.name.map .string),
    ("namespace", m.inNamespace.map .string),
    ("ownerReferences", m.owners.map fun owners => .array (owners.map Owner.toJson)),
    ("resourceVersion", m.resourceVersion.map .string),
    ("selfLink", m.selfLink.map .string),
    ("uid", m.uid.map .string)]

end Meta

end NodeFencing
