import NodeFencing.Request.Basic

/-!
# Requests in JSON

A status is written with all its fields, so that a merge patch clears those that are
empty.

## Main Definitions

* `Request.decoder`, `Request.toJson` — requests
* `Status.decoder`, `Status.toJson` — their status
* `Status.patch` — the merge patch that replaces a status
-/

namespace NodeFencing

open Json (Decoder)
open Json.Decoder (field list optional record text? variant)

namespace Update

def decoder : Decoder Update :=
  record [
    field "timestamp" Decoder.string fun x u => { u with timestamp := x },
    field "method" text? fun x u => { u with method := x },
    field "message" Decoder.string fun x u => { u with message := x },
    field "error" text? fun x u => { u with error := x }
  ] ["timestamp", "message"] {}

def toJson (u : Update) : Json :=
  .ofMembers [
    ("error", u.error.map .string),
    ("message", some (.string u.message)),
    ("method", u.method.map .string),
    ("timestamp", some (.string u.timestamp))]

end Update

namespace Status

def decoder : Decoder Status :=
  Decoder.record [
    field "complete" Decoder.bool fun x s => { s with complete := x },
    field "result" (optional (variant Result.named?)) fun x s => { s with result := x },
    field "config" text? fun x s => { s with config := x },
    field "activeMethod" text? fun x s => { s with activeMethod := x },
    field "activeJob" text? fun x s => { s with activeJob := x },
    field "updates" (list Update.decoder) fun x s => { s with updates := x }
  ] [] {}

/-- Write a status; what is empty becomes null. -/
def toJson (s : Status) : Json :=
  .object [
    ("activeJob", Json.ofOption .string s.activeJob),
    ("activeMethod", Json.ofOption .string s.activeMethod),
    ("complete", .bool s.complete),
    ("config", Json.ofOption .string s.config),
    ("result", Json.ofOption (fun r => .string r.name) s.result),
    ("updates", .array (s.updates.map Update.toJson))]

/-- The merge patch that replaces a status.  With a revision it applies to that one only. -/
def patch (s : Status) (revision : Option String) : Json :=
  .ofMembers [
    ("metadata", revision.map fun rv => .object [("resourceVersion", .string rv)]),
    ("status", some s.toJson)]

end Status

namespace Request

def kind : Kind := ⟨"fencing.clusterlabs.org/v1alpha1", "FencingRequest", "fencingrequests"⟩

private def specDecoder : Decoder (Request → Request) :=
  record [
    field "target" Decoder.string fun x set r => { set r with target := x },
    field "origin" text? fun x set r => { set r with origin := x },
    field "operation" (variant Operation.named?) fun x set r => { set r with operation := x },
    field "notBefore" text? fun x set r => { set r with notBefore := x },
    field "affectedWorkloads" (list Decoder.string) fun x set r =>
      { set r with affectedWorkloads := x }
  ] ["target"] id

def decoder : Decoder Request :=
  record [
    field "metadata" Meta.decoder fun x r => { r with metadata := x },
    field "spec" specDecoder fun set r => set r,
    field "status" (optional Status.decoder) fun x r => { r with status := x }
  ] ["metadata", "spec"] {}

def toJson (r : Request) : Json :=
  .ofMembers (Resource.header kind ++ [
    ("metadata", some r.metadata.toJson),
    ("spec", some (.ofMembers [
      ("affectedWorkloads", Json.ofList? .string r.affectedWorkloads),
      ("notBefore", r.notBefore.map .string),
      ("operation", some (.string r.operation.name)),
      ("origin", some (Json.ofOption .string r.origin)),
      ("target", some (.string r.target))])),
    ("status", r.status.map Status.toJson)])

instance : Resource Request where
  kind := kind
  metadata := Request.metadata
  decoder := decoder
  toJson := toJson

end Request

end NodeFencing
