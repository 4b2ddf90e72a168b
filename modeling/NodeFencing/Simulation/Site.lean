import NodeFencing.Api.Server
import NodeFencing.Monitor.Remote
import NodeFencing.Reconcile.Remote

/-!
# A controller with a cluster in memory

A site is a cluster in memory and the registry of a controller that works on it.  Its
clock stands still.

## Main Definitions

* `Site` — the cluster and the registry
* `Site.answerRequest`, `Site.answerMonitor` — answer the calls of the controller
* `Incident` — what happens to a cluster from outside
-/

namespace NodeFencing

/-- A cluster in memory, and the registry of a controller that works on it. -/
structure Site where
  server : Api.Server := {}
  registry : Registry := {}
  /-- The namespace of the controller. -/
  inNamespace : String
  clock : Instant
  deriving Inhabited

namespace Site

/-- Hold a conversation with the cluster. -/
def converse (s : Site) (p : Program Api.Wire α) : α × Site :=
  let (a, server) := p.run {
    answer := Api.Server.answer
    time := fun _ => s.clock
    wait := fun _ server => server } s.server
  (a, { s with server })

/-- Answer a call that is made for a request. -/
def answerRequest (c : RequestCall) (s : Site) : c.Answer × Site :=
  s.converse (c.remote s.inNamespace s.registry.snapshot)

/-- Answer a call of the monitor. -/
def answerMonitor (c : MonitorCall) (s : Site) : Except TaskError c.Value × Site :=
  s.converse (c.remote s.inNamespace)

/-- The site as the surroundings of work on requests, with pauses that take no time. -/
def surroundings : Program.Surroundings RequestStore Site where
  answer := answerRequest
  time := Site.clock
  wait _ s := s

/-- The path of the objects of a type in the namespace of the controller. -/
def path (s : Site) (α : Type) [Resource α] : String :=
  Api.collection α s.inNamespace

end Site

/-- What happens to a cluster from outside. -/
inductive Incident where
  /-- An object is written. -/
  | apply (collection : String) (object : Json)
  | delete (collection name : String)
  /-- The jobs of a method get a status. -/
  | jobStatus (method : String) (status : Json)
  /-- A call will be refused. -/
  | trap (t : Api.Trap)
  deriving Inhabited

/-- Give the jobs of a method a status. -/
def Api.Server.setJobStatus (s : Api.Server) (jobs method : String) (status : Json) :
    Api.Server :=
  let label? (j : Json) : Option String :=
    (j.at? ["metadata", "labels", methodLabel]).bind Json.asString?
  ((s.objects jobs).map (·.2)).foldl (fun s job =>
    if label? job = some method then (s.put jobs (job.set "status" status)).2 else s) s

/-- Let something happen. -/
def Site.meet (s : Site) (i : Incident) : Site :=
  let server := s.server
  { s with server := match i with
    | .apply collection object => (server.put collection object).2
    | .delete collection name => server.erase collection name
    | .jobStatus method status => server.setJobStatus (s.path Job) method status
    | .trap t => { server with traps := server.traps ++ [t] } }

end NodeFencing
