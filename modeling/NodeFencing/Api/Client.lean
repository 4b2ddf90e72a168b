import NodeFencing.Api.Message
import NodeFencing.Object.Resource

/-!
# Objects of a cluster

The objects of a cluster are read and written by calls of its API.  Each of these
functions makes one call.

## Main Definitions

* `Api.Exchange` — a conversation with a cluster that may fail
* `Api.get?`, `Api.list` — read objects
* `Api.create`, `Api.replace`, `Api.patchStatus`, `Api.delete` — write them
-/

namespace NodeFencing.Api

/-- A conversation with a cluster that may fail. -/
abbrev Exchange (α : Type) := ExceptT ApiError (Program Wire) α

/-- Make a call, and read the reply. -/
def exchange (c : Call) (read : Reply → Except ApiError α) : Exchange α :=
  ExceptT.mk (Program.call (I := Wire) c fun reply => .done (read reply))

/-- Whether a text can be a part of a path. -/
def isPathPart (name : String) : Bool :=
  !name.isEmpty && name.toList.all fun c => ' ' < c && c != '<' && c != '>' && c != '\x60'

/-- Make a call about an object; one whose name cannot be a part of a path is not asked for. -/
def exchangeNamed (name : String) (c : Call) (read : Reply → Except ApiError α) : Exchange α :=
  if isPathPart name then exchange c read else throw .unintelligible

/-- A page of a list. -/
structure Page (α : Type) where
  items : List α := []
  /-- The revision of the collection at which it was listed. -/
  revision : Option String := none
  /-- What the next page is asked for with. -/
  next : Option String := none

/-- A page of objects. -/
def Page.decoder [Resource α] : Json.Decoder (Page α) :=
  let metadata : Json.Decoder (Page α → Page α) := Json.Decoder.record [
    Json.Decoder.field "resourceVersion" Json.Decoder.text? fun x set p =>
      { set p with revision := x.filter (· != "") },
    Json.Decoder.field "continue" Json.Decoder.text? fun x set p =>
      { set p with next := x.filter (· != "") }
  ] [] id
  Json.Decoder.record [
    Json.Decoder.field "metadata" metadata fun set p => set p,
    Json.Decoder.field "items" (Json.Decoder.listOrNull Resource.decoder) fun x p =>
      { p with items := x }
  ] ["items"] {}

section Objects

variable (α : Type) [Resource α] (inNamespace : Option String)

/-- The path of the objects of a type, in one namespace or in none. -/
def collection : String :=
  (Resource.kind α).path inNamespace

/-- An object, if it exists. -/
def get? (name : String) : Exchange (Option α) :=
  exchangeNamed name { verb := .get, collection := collection α inNamespace, place := .item name }
    fun reply =>
      if reply.isMissing then .ok none else some <$> reply.decode Resource.decoder

/-- An object that has to exist. -/
def get (name : String) : Exchange α :=
  exchangeNamed name { verb := .get, collection := collection α inNamespace, place := .item name }
    fun reply => reply.decode Resource.decoder

/-- The call that lists objects. -/
def listCall (query : List (String × String)) : Call where
  verb := .get
  collection := collection α inNamespace
  query := query

/-- The objects that meet some conditions. -/
def list (query : List (String × String)) : Exchange (List α) :=
  exchange (listCall α inNamespace query) fun reply =>
    (·.items) <$> reply.decode Page.decoder

/-- Delete an object, and later what it owns. -/
def delete (name : String) : Exchange Unit :=
  exchangeNamed name {
    verb := .delete
    collection := collection α inNamespace
    place := .item name
    body := some (.object [("propagationPolicy", .string "Background")]) } fun reply =>
      reply.decode fun j =>
        if (j.get? "kind").bind Json.asString? = some "Status" then .ok ()
        else (Resource.decoder (α := α) j).map fun _ => ()

/-- Change the status of an object by a merge patch. -/
def patchStatus (name : String) (patch : Json) : Exchange α :=
  exchangeNamed name {
    verb := .patch
    collection := collection α inNamespace
    place := .status name
    body := some patch } fun reply => reply.decode Resource.decoder

variable {α}

/-- Create an object. -/
def create (a : α) : Exchange α :=
  exchange {
    verb := .post
    collection := collection α inNamespace
    body := some (Resource.toJson a) } fun reply => reply.decode Resource.decoder

/-- Replace an object. -/
def replace (name : String) (a : α) : Exchange α :=
  exchangeNamed name {
    verb := .put
    collection := collection α inNamespace
    place := .item name
    body := some (Resource.toJson a) } fun reply => reply.decode Resource.decoder

end Objects

/-- The condition that labels meet, as a query. -/
def labelQuery (selector : String) : List (String × String) :=
  [("labelSelector", selector)]

/-- The condition that fields meet, as a query. -/
def fieldQuery (selector : String) : List (String × String) :=
  [("fieldSelector", selector)]

/-- A conversation with a cluster as a part of a task; a refusal with code 409 has a meaning. -/
def Exchange.asTask (e : Exchange α) (onConflict : Option TaskError) :
    Program Wire (Except TaskError α) :=
  e.run.bind fun
    | .ok a => .done (.ok a)
    | .error (.refused 409) => .done (.error (onConflict.getD (.api (.refused 409))))
    | .error e => .done (.error (.api e))

end NodeFencing.Api
