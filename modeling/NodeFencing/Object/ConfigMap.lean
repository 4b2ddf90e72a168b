import NodeFencing.Object.Resource

/-!
# Config maps

## Main Definitions

* `ConfigMap` — texts by name, kept in a cluster
-/

namespace NodeFencing

/-- Texts by name, kept in a cluster. -/
structure ConfigMap where
  metadata : Meta := {}
  data : StringMap String := []
  deriving Repr, DecidableEq, Inhabited

namespace ConfigMap

open Json (Decoder)
open Json.Decoder (dictionary field orDefault record)

def kind : Kind := ⟨"v1", "ConfigMap", "configmaps"⟩

def decoder : Decoder ConfigMap :=
  record (Resource.headerFields kind ++ [
    field "metadata" (orDefault {} Meta.decoder) fun x c => { c with metadata := x },
    field "data" (orDefault [] (dictionary Decoder.string)) fun x c => { c with data := x }
  ]) [] {}

def toJson (c : ConfigMap) : Json :=
  .ofMembers (Resource.header kind ++ [
    ("data", if c.data.isEmpty then none else some (.ofStringMap c.data)),
    ("metadata", some c.metadata.toJson)])

instance : Resource ConfigMap where
  kind := kind
  metadata := ConfigMap.metadata
  decoder := decoder
  toJson := toJson

end ConfigMap

end NodeFencing
