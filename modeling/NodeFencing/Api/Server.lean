import NodeFencing.Api.Message
import NodeFencing.Selector

/-!
# A cluster in memory

A cluster keeps objects in collections.  Every change gives the cluster a new revision,
and an object that is written carries it.  A write that names a revision is made over
that one only.

The cluster can be told to refuse calls.  It remembers which calls tried to change
something, and what has changed.

## Main Definitions

* `Api.Server` — the cluster
* `Api.Server.put`, `Api.Server.erase` — change an object
* `Api.Server.answer` — answer a call
-/

namespace NodeFencing.Api

/-! ### Objects -/

/-- The name of an object. -/
def objectName (j : Json) : String :=
  ((j.at? ["metadata", "name"]).bind Json.asString?).getD ""

/-- The revision of an object. -/
def objectRevision? (j : Json) : Option String :=
  (j.at? ["metadata", "resourceVersion"]).bind Json.asString?

/-- The object with a revision. -/
def withRevision (j : Json) (revision : String) : Json :=
  let metadata := (j.get? "metadata").getD (.object [])
  j.set "metadata" (metadata.set "resourceVersion" (.string revision))

/-- Whether an object meets the conditions of a query. -/
def meets (query : List (String × String)) (j : Json) : Bool :=
  let text? (path : List String) : Option String := (j.at? path).bind Json.asString?
  query.all fun (kind, selector) =>
    if kind == "labelSelector" then
      (Selector.ofText selector).holds fun label => text? ["metadata", "labels", label]
    else if kind == "fieldSelector" then
      (Selector.ofText selector).holds fun field => text? (field.splitOn ".")
    else true

/-! ### Clusters -/

/-- A refusal of the next call that fits. -/
structure Trap where
  verb : Verb
  /-- What the path of the call contains. -/
  part : String
  code : Nat
  deriving Repr, DecidableEq, Inhabited

/-- Whether a call is refused. -/
def Trap.catches (t : Trap) (c : Call) : Bool :=
  t.verb == c.verb && (t.part.isEmpty || 1 < (c.path.splitOn t.part).length)

/-- A change of an object. -/
structure ServerChange where
  collection : String
  object : Json
  deleted : Bool := false
  deriving Repr, Inhabited

/-- A cluster. -/
structure Server where
  /-- The objects by their path and their name. -/
  collections : StringMap (StringMap Json) := []
  revision : Nat := 0
  traps : List Trap := []
  /-- The calls that tried to change something. -/
  writes : List Call := []
  /-- What has changed since it was last asked for. -/
  changes : List ServerChange := []
  deriving Inhabited

namespace Server

/-- The objects of a collection, by name and in the order of names. -/
def objects (s : Server) (collection : String) : StringMap Json :=
  ((s.collections.get? collection).getD []).mergeSort fun a b => !decide (b.1 < a.1)

/-- An object. -/
def get? (s : Server) (collection name : String) : Option Json :=
  ((s.collections.get? collection).getD []).get? name

/-- Write an object, which gives it a new revision. -/
def put (s : Server) (collection : String) (object : Json) : Json × Server :=
  let revision := s.revision + 1
  let object := withRevision object (toString revision)
  let objects := (s.collections.get? collection).getD []
  (object, { s with
    collections := s.collections.put collection (objects.put (objectName object) object)
    revision
    changes := s.changes ++ [{ collection, object }] })

/-- Remove an object, if it exists. -/
def erase (s : Server) (collection name : String) : Server :=
  match s.get? collection name with
  | none => s
  | some object =>
    let objects := (s.collections.get? collection).getD []
    { s with
      collections := s.collections.put collection (objects.erase name)
      revision := s.revision + 1
      changes := s.changes ++ [{ collection, object, deleted := true }] }

/-- What has changed, which is then forgotten. -/
def takeChanges (s : Server) : List ServerChange × Server :=
  (s.changes, { s with changes := [] })

/-- The calls that tried to change something, which are then forgotten. -/
def takeWrites (s : Server) : List Call × Server :=
  (s.writes, { s with writes := [] })

/-! ### Calls -/

/-- A successful reply. -/
def success (j : Json) (code : Nat := 200) : Reply where
  code := code
  payload := .json j

/-- The refusal of a call about an object that does not exist. -/
def notFound : Reply :=
  Refusal.reply { code := 404, reason := "NotFound" }

/-- The list of the objects that meet a query. -/
def listing (s : Server) (collection : String) (query : List (String × String)) : Json :=
  let items := (s.objects collection).map (·.2)
  .object [
    ("kind", .string "List"), ("apiVersion", .string "v1"),
    ("metadata", .object [("resourceVersion", .string (toString s.revision))]),
    ("items", .array (items.filter (meets query)))]

/-- Write over an object that exists, if the new content names no other revision. -/
def overwrite (s : Server) (collection name : String) (body : Json) (change : Json → Json) :
    Reply × Server :=
  match s.get? collection name with
  | none => (notFound, s)
  | some object =>
    if (objectRevision? body).isSome && objectRevision? body != objectRevision? object then
      (Refusal.reply { code := 409, reason := "Conflict" }, s)
    else
      let (object, s) := s.put collection (change object)
      (success object, s)

/-- The effect of a call that is not refused beforehand. -/
def perform (s : Server) (c : Call) : Reply × Server :=
  let body := c.body.getD (.object [])
  match c.verb, c.place with
  | .get, .all => (success (s.listing c.collection c.query), s)
  | .get, .item name =>
    match s.get? c.collection name with
    | some object => (success object, s)
    | none => (notFound, s)
  | .post, .all =>
    if (s.get? c.collection (objectName body)).isSome then
      (Refusal.reply { code := 409, reason := "AlreadyExists" }, s)
    else
      let (object, s) := s.put c.collection body
      (success object 201, s)
  | .put, .item name => s.overwrite c.collection name body fun _ => body
  | .patch, .status name =>
    s.overwrite c.collection name body fun object =>
      object.set "status" ((body.get? "status").getD .null)
  | .delete, .item name =>
    match s.get? c.collection name with
    | some object => (success object, s.erase c.collection name)
    | none => (notFound, s)
  | _, _ => (Refusal.reply { code := 405, reason := "MethodNotAllowed" }, s)

/-- Remove the first trap that catches a call, and tell which it was. -/
def spring (c : Call) : List Trap → Option Trap × List Trap
  | [] => (none, [])
  | t :: rest =>
    if t.catches c then (some t, rest)
    else
      let (sprung, rest) := spring c rest
      (sprung, t :: rest)

/-- Answer a call.  A trap refuses it without any effect. -/
def answer (c : Call) (s : Server) : Reply × Server :=
  let s := if c.writes then { s with writes := s.writes ++ [c] } else s
  let (sprung, traps) := spring c s.traps
  let s := { s with traps }
  match sprung with
  | some trap => (Refusal.reply { code := trap.code, reason := "Injected" }, s)
  | none => s.perform c

end Server

end NodeFencing.Api
