import NodeFencing.Api.Client
import NodeFencing.Object.Resource

/-!
# Watching the objects of a cluster

A watch lists all objects first, page by page, and then asks for what changes.  When the
changes end it asks for more.  When the cluster does not know any more what has changed
since the list, the watch starts over, and likewise when a list is of no use.

## Main Definitions

* `Api.WatchPhase` — what a watch asks for next
* `Api.WatchPhase.step` — what a reply reports, and how the watch goes on
* `Api.WatchPhase.follow` — what many replies report
-/

namespace NodeFencing.Api

/-- What a watch asks for next. -/
inductive WatchPhase where
  /-- The first page of the list. -/
  | start
  /-- Another page of the list. -/
  | paging
  /-- What has changed. -/
  | watching
  deriving Repr, DecidableEq, Inhabited

section

variable {α : Type} [Resource α]

/-- What a line of a reply reports. -/
inductive WatchLine (α : Type) where
  | change (c : Change α)
  /-- The changes are not known any more. -/
  | expired
  /-- Nothing that matters. -/
  | nothing

/-- The object of a line; one that has no revision cannot be followed. -/
def WatchLine.ofObject (report : α → Change α) (j : Json) : WatchLine α :=
  match Resource.decoder j with
  | .ok a =>
    if ((Resource.metadata a).resourceVersion.getD "").isEmpty then .expired
    else .change (report a)
  | .error _ => .nothing

/-- What the value on a line reports. -/
def WatchLine.ofJson (j : Json) : WatchLine α :=
  match (j.get? "type").bind Json.asString?, j.get? "object" with
  | some "ADDED", some object => ofObject .applied object
  | some "MODIFIED", some object => ofObject .applied object
  | some "DELETED", some object => ofObject .deleted object
  | some "ERROR", some object =>
    match Refusal.decoder object with
    | .ok refusal => if refusal.code = 410 then .expired else .nothing
    | .error _ => .nothing
  | _, _ => .nothing

namespace WatchPhase

/-- What the lines of a reply report.  At the end of the lines the watch goes on, unless it has to
start over. -/
def readLines : List (WatchLine α) → List (Change α) × WatchPhase
  | [] => ([], watching)
  | .expired :: _ => ([], start)
  | .nothing :: rest => readLines rest
  | .change c :: rest =>
    let (changes, phase) := readLines rest
    (c :: changes, phase)

/-- What a page of a list reports. -/
def readPage (page : Page α) : List (Change α) × WatchPhase :=
  let listed := page.items.map Change.listed
  match page.next, page.revision with
  | some _, _ => (listed, paging)
  | none, some _ => (listed ++ [.settled], watching)
  | none, none => ([], start)

/-- What a reply reports, and how the watch goes on. -/
def step (phase : WatchPhase) (reply : Reply) : List (Change α) × WatchPhase :=
  match phase with
  | watching => readLines (reply.payload.lines.map WatchLine.ofJson)
  | start | paging =>
    match reply.decode Page.decoder with
    | .ok page => readPage page
    | .error _ => ([], start)

/-- What is reported before a call. -/
def opening : WatchPhase → List (Change α)
  | start => [.listing]
  | paging | watching => []

/-- What replies report until one does not come, and the replies behind that. -/
def follow : WatchPhase → List (Option Reply) → List (Change α) × List (Option Reply)
  | phase, [] => (phase.opening, [])
  | phase, none :: rest => (phase.opening, rest)
  | phase, some reply :: rest =>
    let (changes, next) := phase.step reply
    let (more, left) := follow next rest
    (phase.opening ++ changes ++ more, left)

end WatchPhase

end

end NodeFencing.Api
