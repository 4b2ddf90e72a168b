import NodeFencing.Object.Resource

/-!
# Events

Programs in a cluster report what they notice as events.  An event names the component
that reports it and the object it is about.

## Main Definitions

* `Event` — a report about an object
* `Event.reporter` — the component that reports it
* `Event.node?` — the node it comes from or is about
-/

namespace NodeFencing

/-- A report about an object. -/
structure Event where
  metadata : Meta := {}
  /-- Its gravity: Normal or Warning. -/
  type : Option String := none
  reason : Option String := none
  message : Option String := none
  /-- The component that noticed it, and the machine this component runs on. -/
  sourceComponent : Option String := none
  sourceHost : Option String := none
  reportingComponent : Option String := none
  /-- The kind and the name of the object it is about. -/
  aboutKind : Option String := none
  aboutName : Option String := none
  deriving Repr, DecidableEq, Inhabited

namespace Event

/-- The component that reports an event. -/
def reporter (e : Event) : String :=
  (e.sourceComponent <|> e.reportingComponent).getD ""

/-- The node that an event comes from, or else the object it is about. -/
def node? (e : Event) : Option String :=
  e.sourceHost <|> e.aboutName

/-! ### JSON -/

open Json (Decoder)
open Json.Decoder (field orDefault record text?)

def kind : Kind := ⟨"v1", "Event", "events"⟩

private def sourceDecoder : Decoder (Option String × Option String) :=
  record [
    field "component" text? fun x s => (x, s.2),
    field "host" text? fun x s => (s.1, x)
  ] [] (none, none)

private def aboutDecoder : Decoder (Option String × Option String) :=
  record [
    field "kind" text? fun x s => (x, s.2),
    field "name" text? fun x s => (s.1, x)
  ] [] (none, none)

def decoder : Decoder Event :=
  record (Resource.headerFields kind ++ [
    field "metadata" (orDefault {} Meta.decoder) fun x e => { e with metadata := x },
    field "type" text? fun x e => { e with type := x },
    field "reason" text? fun x e => { e with reason := x },
    field "message" text? fun x e => { e with message := x },
    field "source" (orDefault (none, none) sourceDecoder) fun x e =>
      { e with sourceComponent := x.1, sourceHost := x.2 },
    field "reportingComponent" text? fun x e => { e with reportingComponent := x },
    field "involvedObject" (orDefault (none, none) aboutDecoder) fun x e =>
      { e with aboutKind := x.1, aboutName := x.2 }
  ]) [] {}

def toJson (e : Event) : Json :=
  .ofMembers (Resource.header kind ++ [
    ("involvedObject", some (.ofMembers [
      ("kind", e.aboutKind.map .string), ("name", e.aboutName.map .string)])),
    ("message", e.message.map .string),
    ("metadata", some e.metadata.toJson),
    ("reason", e.reason.map .string),
    ("reportingComponent", e.reportingComponent.map .string),
    ("source", some (.ofMembers [
      ("component", e.sourceComponent.map .string), ("host", e.sourceHost.map .string)])),
    ("type", e.type.map .string)])

instance : Resource Event where
  kind := kind
  metadata := Event.metadata
  decoder := decoder
  toJson := toJson

end Event

end NodeFencing
