import NodeFencing.Json.Decode
import NodeFencing.Json.Read
import NodeFencing.TaskError
import NodeFencing.Width

/-!
# Calls of a cluster

A cluster is asked over its API.  A call says what is to be done with the objects of a
collection, or with one of them.  The reply has a code; from 400 on it is a refusal,
whose reason is described in the reply.

## Main Definitions

* `Api.Call`, `Api.Reply` — what is asked and answered
* `Api.Wire` — calls with their replies
* `Api.Reply.refusal?` — why a call was refused
-/

namespace NodeFencing.Api

/-! ### Calls -/

/-- What is to be done. -/
inductive Verb where
  | get
  | post
  | put
  | patch
  | delete
  deriving Repr, DecidableEq, Inhabited

namespace Verb

/-- The name of a verb. -/
def name : Verb → String
  | get => "GET"
  | post => "POST"
  | put => "PUT"
  | patch => "PATCH"
  | delete => "DELETE"

/-- The verb of a name. -/
def named? (name : String) : Option Verb :=
  [get, post, put, patch, delete].find? (·.name == name)

end Verb

/-- What a call is about. -/
inductive Place where
  /-- All objects of a collection. -/
  | all
  /-- The object of a name. -/
  | item (name : String)
  /-- The status of the object of a name. -/
  | status (name : String)
  deriving Repr, DecidableEq, Inhabited

/-- A call. -/
structure Call where
  verb : Verb
  /-- The path of the collection. -/
  collection : String
  place : Place := .all
  /-- What the objects are restricted to. -/
  query : List (String × String) := []
  body : Option Json := none
  deriving Repr, Inhabited

namespace Call

/-- The path of what a call is about. -/
def path (c : Call) : String :=
  match c.place with
  | .all => c.collection
  | .item name => c.collection ++ "/" ++ name
  | .status name => c.collection ++ "/" ++ name ++ "/status"

/-- The form in which the body is sent.  Nothing is sent in order to read. -/
def contentType (c : Call) : String :=
  match c.verb with
  | .get => ""
  | .patch => "application/merge-patch+json"
  | _ => "application/json"

/-- Whether a call may change something. -/
def writes (c : Call) : Bool :=
  c.verb != .get

end Call

/-! ### Replies -/

/-- What a reply brings: a value, or a text that should be one. -/
inductive Payload where
  | json (j : Json)
  | text (s : String)
  deriving Repr, Inhabited

namespace Payload

/-- The value that was sent. -/
def value? : Payload → Option Json
  | json j => some j
  | text s => Json.read? s

/-- The values on the lines of a text, as far as there are any. -/
def lines : Payload → List Json
  | json j => [j]
  | text s => (s.splitOn "\n").filterMap Json.read?

end Payload

/-- A reply. -/
structure Reply where
  code : Nat
  payload : Payload
  deriving Repr, Inhabited

/-- Calls with their replies. -/
def Wire : Interface where
  Call := Call
  Answer _ := Reply

/-- Why a call was refused. -/
structure Refusal where
  code : Nat
  reason : String := ""
  deriving Repr, DecidableEq, Inhabited

namespace Refusal

open Json (Decoder)

/-- The description of a refusal. -/
def toJson (r : Refusal) : Json :=
  .object [
    ("apiVersion", .string "v1"), ("kind", .string "Status"), ("metadata", .object []),
    ("status", .string "Failure"), ("message", .string r.reason), ("reason", .string r.reason),
    ("code", .nat r.code)]

/-- The refusal that is described. -/
def decoder : Decoder Refusal :=
  Decoder.record [
    Decoder.field "status" Decoder.string fun _ r => r,
    Decoder.field "message" Decoder.string fun _ r => r,
    Decoder.field "reason" Decoder.string fun x r => { r with reason := x },
    Decoder.field "code" (Decoder.integer 0 (greatestUnsigned 16)) fun x r =>
      { r with code := x.toNat }
  ] ["status", "code"] { code := 0 }

/-- The reply that refuses a call. -/
def reply (r : Refusal) : Reply where
  code := r.code
  payload := .json r.toJson

end Refusal

namespace Reply

/-- Why a call was refused, if it was.  Without a description the code alone counts. -/
def refusal? (r : Reply) : Option Refusal :=
  if 400 ≤ r.code && r.code < 600 then
    match r.payload.value?.map Refusal.decoder with
    | some (.ok refusal) => some refusal
    | _ => some { code := r.code }
  else none

/-- Whether an object does not exist. -/
def isMissing (r : Reply) : Bool :=
  match r.refusal? with
  | some refusal => refusal.reason == "NotFound"
  | none => false

/-- The value that was sent, unless the call was refused. -/
def content (r : Reply) : Except ApiError Json :=
  match r.refusal?, r.payload.value? with
  | some refusal, _ => .error (.refused refusal.code)
  | none, some j => .ok j
  | none, none => .error .unintelligible

/-- The value that was sent, read by a decoder. -/
def decode (r : Reply) (decoder : Json.Decoder α) : Except ApiError α :=
  match r.content with
  | .error e => .error e
  | .ok j =>
    match decoder j with
    | .ok a => .ok a
    | .error _ => .error .unintelligible

end Reply

end NodeFencing.Api
