import NodeFencing.Request.Codec

/-!
# The definition of requests

A cluster accepts requests after it was given a definition of their kind: its names, a
schema of its objects and the columns in which they are listed.

## Main Definitions

* `Request.schema` — the schema of a request
* `Request.definition` — the definition for the cluster
-/

namespace NodeFencing

namespace Schema

/-- The schema of a kind of values: their type, what they mean and further conditions. -/
private def of (type description : String) (more : List (String × Json) := []) : Json :=
  .object ([("type", .string type), ("description", .string description)] ++ more)

/-- A text. -/
def text (description : String) (more : List (String × Json) := []) : Json :=
  of "string" description more

/-- A condition: null is allowed. -/
def nullable : String × Json :=
  ("nullable", .bool true)

/-- A condition: one of these texts. -/
def oneOf (texts : List String) : String × Json :=
  ("enum", .strings texts)

/-- The value that counts if there is none. -/
def default (value : Json) : String × Json :=
  ("default", value)

/-- A text that may be null. -/
def optionalText (description : String) : Json :=
  text description [nullable]

/-- A list. -/
def list (description : String) (element : Json) (more : List (String × Json) := []) : Json :=
  of "array" description (("items", element) :: more)

/-- An object. -/
def object (description : String) (properties : List (String × Json)) (required : List String)
    (more : List (String × Json) := []) : Json :=
  of "object" description <|
    ("properties", .object properties)
      :: ((if required.isEmpty then [] else [("required", Json.strings required)]) ++ more)

end Schema

open Schema

/-- The schema of what is asked for. -/
private def specSchema : Json :=
  Schema.object "\x60FencingRequest\x60 CRD" [
    ("target", text "Name of the node to fence"),
    ("origin", optionalText
      "Who or what raised the request (e.g. \"node-health-monitor: heartbeat lost\")"),
    ("operation", text "Requested operation (On, Off, Cycle)" [
      Schema.default (.string Operation.off.name),
      oneOf ([Operation.on, .off, .cycle].map (·.name))]),
    ("notBefore", optionalText "Do not act before this time (RFC3339)"),
    ("affectedWorkloads",
      list "Workloads that were observed on the target when the request was raised"
        (.object [("type", .string "string")]))
  ] ["target"]

/-- The schema of an entry of the log. -/
private def updateSchema : Json :=
  Schema.object "One entry of the audit trail" [
    ("timestamp", text "RFC3339 timestamp"),
    ("method", optionalText "Method the update refers to, if any"),
    ("message", text "Human-readable message"),
    ("error", optionalText "Error text, if the transition was caused by a failure")
  ] ["message", "timestamp"]

/-- The schema of a status. -/
private def statusSchema : Json :=
  Schema.object
    ("Status of the \x60FencingRequest\x60\n\n\x60config\x60, \x60active_method\x60 and " ++
      "\x60active_job\x60 are serialized even when empty so that a merge patch clears them.") [
    ("complete", Schema.of "boolean" "Terminal flag, once set the request is never reprocessed"
      [Schema.default (.bool false)]),
    ("result", text "Final result code" [
      nullable,
      oneOf ([Result.success, .noConfig, .givingUp, .configSelected, .methodSelected,
        .jobDispatched, .methodFailed, .methodSucceeded].map (·.name))]),
    ("config", optionalText "Name of the selected fencing configuration (sticky)"),
    ("activeMethod", optionalText "Name of the method currently being executed (sticky)"),
    ("activeJob", optionalText "Name of the Job dispatched for the active method"),
    ("updates", list "Ordered audit trail, append-only" updateSchema [Schema.default (.array [])])
  ] [] [nullable]

namespace Request

/-- The schema of a request. -/
def schema : Json :=
  Schema.object
    "Auto-generated derived type for FencingRequestSpec via \x60CustomResource\x60"
    [("spec", specSchema), ("status", statusSchema)] ["spec"]
    [("title", .string kind.name)]

/-- A column of a listing of requests. -/
private def column (name type path : String) : Json :=
  .object [("name", .string name), ("type", .string type), ("jsonPath", .string path)]

/-- The definition of requests for a cluster. -/
def definition : Json :=
  .object [
    ("apiVersion", .string "apiextensions.k8s.io/v1"),
    ("kind", .string "CustomResourceDefinition"),
    ("metadata", .object [("name", .string "fencingrequests.fencing.clusterlabs.org")]),
    ("spec", .object [
      ("group", .string "fencing.clusterlabs.org"),
      ("names", .object [
        ("categories", .array []),
        ("kind", .string kind.name),
        ("plural", .string kind.plural),
        ("shortNames", .strings ["fr"]),
        ("singular", .string "fencingrequest")]),
      ("scope", .string "Namespaced"),
      ("versions", .array [.object [
        ("additionalPrinterColumns", .array [
          column "Target" "string" ".spec.target",
          column "Operation" "string" ".spec.operation",
          column "Method" "string" ".status.activeMethod",
          column "Complete" "boolean" ".status.complete",
          column "Result" "string" ".status.result",
          column "Age" "date" ".metadata.creationTimestamp"]),
        ("name", .string "v1alpha1"),
        ("schema", .object [("openAPIV3Schema", schema)]),
        ("served", .bool true),
        ("storage", .bool true),
        ("subresources", .object [("status", .object [])])]])])]

end Request

end NodeFencing
