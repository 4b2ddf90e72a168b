import NodeFencing.Object.Resource

/-!
# Pods

A pod runs containers on a node.  Its volumes are mounted by the containers; a volume
that is claimed outlives the pod.

## Main Definitions

* `Container`, `Volume`, `PodSpec` — what a pod runs
* `Pod` — a pod
* `Pod.mountsClaims` — whether a pod has storage that outlives it
-/

namespace NodeFencing

/-- An environment variable. -/
structure EnvVar where
  name : String := ""
  value : Option String := none
  deriving Repr, DecidableEq, Inhabited

/-- Where a container sees a volume. -/
structure Mount where
  /-- The name of the volume. -/
  name : String := ""
  path : String := ""
  readOnly : Option Bool := none
  deriving Repr, DecidableEq, Inhabited

/-- A container of a pod. -/
structure Container where
  name : String := ""
  image : Option String := none
  command : List String := []
  args : List String := []
  env : List EnvVar := []
  mounts : List Mount := []
  deriving Repr, DecidableEq, Inhabited

/-- What a volume holds. -/
inductive VolumeSource where
  /-- The entries of a secret. -/
  | secret (name : Option String)
  /-- Storage that outlives the pod. -/
  | claim (name : String) (readOnly : Option Bool)
  | other
  deriving Repr, DecidableEq, Inhabited

/-- A volume of a pod. -/
structure Volume where
  name : String := ""
  source : VolumeSource := .other
  deriving Repr, DecidableEq, Inhabited

/-- What a pod runs. -/
structure PodSpec where
  containers : List Container := []
  volumes : List Volume := []
  restartPolicy : Option String := none
  deriving Repr, DecidableEq, Inhabited

/-- What the pods of a job are made from. -/
structure PodTemplate where
  metadata : Option Meta := none
  spec : Option PodSpec := none
  deriving Repr, DecidableEq, Inhabited

/-- A pod. -/
structure Pod where
  metadata : Meta := {}
  spec : Option PodSpec := none
  deriving Repr, DecidableEq, Inhabited

/-- Whether a volume holds storage that outlives the pod. -/
def Volume.isClaim (v : Volume) : Bool :=
  match v.source with
  | .claim .. => true
  | _ => false

/-- Whether a pod has storage that outlives it. -/
def Pod.mountsClaims (p : Pod) : Bool :=
  match p.spec with
  | some spec => spec.volumes.any Volume.isClaim
  | none => false

/-! ### JSON -/

open Json (Decoder)
open Json.Decoder (field flag? listOrNull optional orDefault record text text?)

namespace EnvVar

def decoder : Decoder EnvVar :=
  record [
    field "name" text fun x v => { v with name := x },
    field "value" text? fun x v => { v with value := x }
  ] [] {}

def toJson (v : EnvVar) : Json :=
  .ofMembers [("name", some (.string v.name)), ("value", v.value.map .string)]

end EnvVar

namespace Mount

def decoder : Decoder Mount :=
  record [
    field "name" text fun x m => { m with name := x },
    field "mountPath" text fun x m => { m with path := x },
    field "readOnly" flag? fun x m => { m with readOnly := x }
  ] [] {}

def toJson (m : Mount) : Json :=
  .ofMembers [
    ("mountPath", some (.string m.path)), ("name", some (.string m.name)),
    ("readOnly", m.readOnly.map .bool)]

end Mount

namespace Container

def decoder : Decoder Container :=
  record [
    field "name" text fun x c => { c with name := x },
    field "image" text? fun x c => { c with image := x },
    field "command" (listOrNull Decoder.string) fun x c => { c with command := x },
    field "args" (listOrNull Decoder.string) fun x c => { c with args := x },
    field "env" (listOrNull EnvVar.decoder) fun x c => { c with env := x },
    field "volumeMounts" (listOrNull Mount.decoder) fun x c => { c with mounts := x }
  ] [] {}

/-- Write a container; empty lists are left out. -/
def toJson (c : Container) : Json :=
  .ofMembers [
    ("args", Json.ofList? .string c.args), ("command", Json.ofList? .string c.command),
    ("env", Json.ofList? EnvVar.toJson c.env), ("image", c.image.map .string),
    ("name", some (.string c.name)), ("volumeMounts", Json.ofList? Mount.toJson c.mounts)]

end Container

namespace Volume

private def secretDecoder : Decoder VolumeSource :=
  record [field "secretName" text? fun x _ => .secret x] [] (.secret none)

private def claimDecoder : Decoder VolumeSource :=
  record [
    field "claimName" text fun x s => match s with
      | .claim _ readOnly => .claim x readOnly
      | s => s,
    field "readOnly" flag? fun x s => match s with
      | .claim name _ => .claim name x
      | s => s
  ] [] (.claim "" none)

/-- Read a volume.  Of several sources a claim counts. -/
def decoder : Decoder Volume :=
  record [
    field "name" text fun x v => { v with name := x },
    field "secret" (optional secretDecoder) fun x v =>
      match x, v.source with
      | some source, .other => { v with source }
      | _, _ => v,
    field "persistentVolumeClaim" (optional claimDecoder) fun x v =>
      { v with source := x.getD v.source }
  ] [] {}

def toJson (v : Volume) : Json :=
  .ofMembers [
    ("name", some (.string v.name)),
    ("persistentVolumeClaim", match v.source with
      | .claim name readOnly =>
        some (.ofMembers [("claimName", some (.string name)), ("readOnly", readOnly.map .bool)])
      | _ => none),
    ("secret", match v.source with
      | .secret name => some (.ofMembers [("secretName", name.map .string)])
      | _ => none)]

end Volume

namespace PodSpec

def decoder : Decoder PodSpec :=
  record [
    field "containers" (listOrNull Container.decoder) fun x s => { s with containers := x },
    field "volumes" (listOrNull Volume.decoder) fun x s => { s with volumes := x },
    field "restartPolicy" text? fun x s => { s with restartPolicy := x }
  ] [] {}

def toJson (s : PodSpec) : Json :=
  .ofMembers [
    ("containers", some (.array (s.containers.map Container.toJson))),
    ("restartPolicy", s.restartPolicy.map .string),
    ("volumes", Json.ofList? Volume.toJson s.volumes)]

end PodSpec

namespace PodTemplate

def decoder : Decoder PodTemplate :=
  record [
    field "metadata" (optional Meta.decoder) fun x t => { t with metadata := x },
    field "spec" (optional PodSpec.decoder) fun x t => { t with spec := x }
  ] [] {}

def toJson (t : PodTemplate) : Json :=
  .ofMembers [("metadata", t.metadata.map Meta.toJson), ("spec", t.spec.map PodSpec.toJson)]

end PodTemplate

namespace Pod

def kind : Kind := ⟨"v1", "Pod", "pods"⟩

def decoder : Decoder Pod :=
  record (Resource.headerFields kind ++ [
    field "metadata" (orDefault {} Meta.decoder) fun x p => { p with metadata := x },
    field "spec" (optional PodSpec.decoder) fun x p => { p with spec := x }
  ]) [] {}

def toJson (p : Pod) : Json :=
  .ofMembers (Resource.header kind ++ [
    ("metadata", some p.metadata.toJson), ("spec", p.spec.map PodSpec.toJson)])

instance : Resource Pod where
  kind := kind
  metadata := Pod.metadata
  decoder := decoder
  toJson := toJson

end Pod

end NodeFencing
