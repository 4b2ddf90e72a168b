import NodeFencing.Monitor.Loop
import NodeFencing.Reconcile.Agenda
import NodeFencing.Reconcile.Pass
import NodeFencing.Simulation.Site
import NodeFencing.Source.Remote

/-!
# A controller at work

The controller watches a cluster and does two kinds of work: the monitor reacts to one
signal after another, and requests are worked on, each by one pass at a time.  Time passes
only in pauses, and until something is due; everything else takes no time, and is reported
to the watches at once.

A list that fails is repeated after a pause, which grows.

## Main Definitions

* `Run` — a controller and its cluster at some time
* `Run.monitoring`, `Run.controlling` — a controller that only watches nodes, and a whole one
* `Run.step?` — do one thing that is due
* `Run.runTo` — do everything that is due before a time
-/

namespace NodeFencing

/-- Work that goes on at some time. -/
structure Paused (I : Interface) (α : Type) where
  resume : Duration
  rest : Program I α

/-- What is watched. -/
inductive Watched where
  | sources
  | requests
  | jobs
  | nodes
  | events
  deriving Repr, DecidableEq, Inhabited

/-- A watch that has yet to list its objects. -/
structure Listing where
  watched : Watched
  time : Duration := {}
  /-- How often listing has failed. -/
  failures : Nat := 0
  deriving Repr, DecidableEq, Inhabited

/-- A controller and its cluster at some time. -/
structure Run where
  site : Site
  settings : Settings
  time : Duration := {}
  /-- The watches that have yet to list their objects, and the others. -/
  listings : List Listing := []
  watches : List Watched := []
  /-- The names of the sources that were listed so far. -/
  listedSources : List String := []
  loop : MonitorLoop
  /-- When all nodes are looked at next. -/
  nextSweep : Duration := {}
  /-- What the monitor is doing. -/
  reaction : Option (Paused MonitorStore (Except TaskError MonitorAction × Monitor)) := none
  agenda : Agenda := {}
  /-- The requests that are worked on. -/
  passes : List (ObjectKey × Paused RequestStore (Except TaskError Outcome)) := []

namespace Run

/-! ### Reports of watches -/

/-- Take in a report about the sources of configurations. -/
def reportSource (r : Run) (c : Change ConfigMap) : Run :=
  let follower : Follower := { registry := r.site.registry, listed := r.listedSources }
  let follower := follower.step r.settings.dispatch.configKey c
  { r with
    site := { r.site with registry := follower.registry }
    listedSources := follower.listed }

/-- Where a watch finds its objects, and what it does with reports about them. -/
structure Subscription where
  {Object : Type}
  [resource : Resource Object]
  inNamespace : Option String
  query : List (String × String) := []
  report : Run → Change Object → Run

/-- The condition that the events for the monitor meet. -/
def problemSelector : Selector :=
  [("type", "Warning"), ("involvedObject.kind", "Node")]

/-- Where the controller finds what it watches. -/
def subscription (r : Run) : Watched → Subscription
  | .sources => {
    inNamespace := some r.site.inNamespace
    query := Api.labelQuery r.settings.dispatch.configSelector
    report := reportSource }
  | .requests => {
    inNamespace := some r.site.inNamespace
    report := fun r c => { r with agenda := r.agenda.report r.time c } }
  | .jobs => {
    inNamespace := some r.site.inNamespace
    report := fun r c => { r with agenda := r.agenda.reportJob r.time c } }
  | .nodes => {
    inNamespace := none
    report := fun r c => { r with loop := r.loop.notify (.node c) } }
  | .events => {
    inNamespace := none
    query := Api.fieldQuery problemSelector.text
    report := fun r c => { r with loop := r.loop.notify (.event c) } }

/-- Take in a change of the cluster, if it is watched and can be read. -/
def Subscription.deliver (s : Subscription) (r : Run) (c : Api.ServerChange) : Run :=
  letI := s.resource
  if c.collection == Api.collection s.Object s.inNamespace && Api.meets s.query c.object then
    match Resource.decoder (α := s.Object) c.object with
    | .ok a => s.report r (if c.deleted then .deleted a else .applied a)
    | .error _ => r
  else r

/-- Take in a change of the cluster. -/
def deliver (r : Run) (c : Api.ServerChange) : Run :=
  r.watches.foldl (fun r w => (r.subscription w).deliver r c) r

/-- The pause behind a list that has failed, when others have failed before: it is doubled each
time, up to half a minute. -/
def listPause (failures : Nat) : Duration :=
  Duration.ofMillis (min (800 * Nat.pow 2 failures) 30000)

/-- List the objects of a watch; from then on it reports changes. -/
def list (r : Run) (l : Listing) : Run :=
  let s := r.subscription l.watched
  letI := s.resource
  let (objects, site) := r.site.converse (Api.list s.Object s.inNamespace s.query).run
  let r := { r with site }
  match objects with
  | .ok objects =>
    let changes := .listing :: objects.map .listed ++ [.settled]
    { changes.foldl s.report r with watches := r.watches ++ [l.watched] }
  | .error _ =>
    let again := { l with time := r.time + listPause l.failures, failures := l.failures + 1 }
    { r with listings := r.listings ++ [again] }

/-! ### Work -/

/-- Go on with the reaction of the monitor. -/
def continueReaction (r : Run) (reaction : Reaction) : Run :=
  let (stop, site) := reaction.advance
    (fun c s => (s.answerMonitor c).map some id) Site.clock r.site
  let r := { r with site, reaction := none }
  match stop with
  | .finished (_, monitor) => { r with loop := { r.loop with monitor } }
  | .paused d rest => { r with reaction := some ⟨r.time + d, rest⟩ }
  | .stuck => r

/-- Go on with a pass over a request.  Afterwards the request is set the time that the pass asks
for; after a failure it is worked on again. -/
def continuePass (r : Run) (key : ObjectKey)
    (pass : Program RequestStore (Except TaskError Outcome)) : Run :=
  let (stop, site) := pass.advance (fun c s => (s.answerRequest c).map some id) Site.clock r.site
  let r := { r with site, passes := r.passes.filter (·.1 != key) }
  let again (d : Duration) : Run := { r with agenda := r.agenda.schedule key (r.time + d) }
  match stop with
  | .finished (.ok .done) | .stuck => r
  | .finished (.ok (.requeue d)) => again d
  | .finished (.error _) => again r.settings.dispatch.jobPoll
  | .paused d rest => { r with passes := r.passes ++ [(key, ⟨r.time + d, rest⟩)] }

/-- Begin a pass over a request, unless it is gone. -/
def beginPass (r : Run) (key : ObjectKey) : Run :=
  match r.agenda.get? key with
  | some request => r.continuePass key (reconcile r.settings request r.site.clock).run
  | none => r

/-! ### Steps -/

/-- The requests that are worked on. -/
def busy (r : Run) : List ObjectKey :=
  r.passes.map (·.1)

/-- Tell the watches what has changed. -/
def stepChanges? (r : Run) : Option Run :=
  let (changes, server) := r.site.server.takeChanges
  if changes.isEmpty then none
  else some (changes.foldl deliver { r with site := { r.site with server } })

/-- Look at all nodes, if it is time and the monitor is not busy. -/
def stepSweep? (r : Run) : Option Run :=
  if r.reaction.isNone && r.nextSweep ≤ r.time then
    some { r with
      loop := r.loop.sweep
      nextSweep := r.nextSweep + r.settings.health.sweep }
  else none

/-- List the objects of a watch, if it is time. -/
def stepListing? (r : Run) : Option Run :=
  match r.listings.find? fun l => decide (l.time ≤ r.time) with
  | some l => some ({ r with listings := r.listings.erase l }.list l)
  | none => none

/-- Go on with a reaction of the monitor, or begin the next one. -/
def stepMonitor? (r : Run) : Option Run :=
  match r.reaction with
  | some reaction =>
    if reaction.resume ≤ r.time then some (r.continueReaction reaction.rest) else none
  | none =>
    match r.loop.next? r.site.clock with
    | some (some reaction, loop) => some ({ r with loop }.continueReaction reaction)
    | some (none, loop) => some { r with loop }
    | none => none

/-- Go on with a pass, or begin one that is due. -/
def stepPass? (r : Run) : Option Run :=
  match r.passes.find? fun p => decide (p.2.resume ≤ r.time) with
  | some (key, pass) => some (r.continuePass key pass.rest)
  | none =>
    match r.agenda.next? r.time r.busy with
    | some (key, agenda) => some ({ r with agenda }.beginPass key)
    | none => none

/-- Do one thing that is due, if there is any. -/
def step? (r : Run) : Option Run :=
  r.stepChanges? <|> r.stepSweep? <|> r.stepListing? <|> r.stepMonitor? <|> r.stepPass?

/-- When something will be due, if nothing is now. -/
def nextTime? (r : Run) : Option Duration :=
  let sweep := if r.reaction.isNone then [r.nextSweep] else []
  let times := sweep ++ r.listings.map (·.time) ++ r.reaction.toList.map (·.resume) ++
    r.passes.map (·.2.resume) ++ r.agenda.times r.busy
  times.foldl (fun best t =>
    match best with
    | some b => if t < b then some t else best
    | none => some t) none

/-- Do what is due before a time, in at most so many steps. -/
def advance (limit : Duration) : (steps : Nat) → Run → Run
  | 0, r => { r with time := limit }
  | steps + 1, r =>
    match r.step? with
    | some r => advance limit steps r
    | none =>
      match r.nextTime? with
      | some t => if t < limit then advance limit steps { r with time := t }
        else { r with time := limit }
      | none => { r with time := limit }

/-- Do everything that is due before a time.  There are no more than a thousand steps in a
second. -/
def runTo (r : Run) (limit : Duration) : Run :=
  if r.time < limit then r.advance limit (1000 * (limit.seconds + 10)) else r

/-! ### Starting -/

/-- A controller that only watches nodes. -/
def monitoring (site : Site) (settings : Settings) : Run where
  site := site
  settings := settings
  listings := [{ watched := .nodes }, { watched := .events }]
  loop := { monitor := {
    health := settings.health
    backoff := settings.retry.backoff
    inNamespace := some site.inNamespace } }

/-- A whole controller.  It loads the configurations before it looks at any request; without them
it does not start. -/
def controlling (site : Site) (settings : Settings) : Except TaskError Run × Site :=
  let (sources, site) :=
    site.converse (listSources site.inNamespace settings.dispatch.configSelector)
  match sources with
  | .error e => (.error e, site)
  | .ok sources =>
    let registry := site.registry.load sources settings.dispatch.configKey
    let site := { site with registry }
    let run := monitoring site settings
    let first : List Listing := [
      { watched := .sources }, { watched := .requests }, { watched := .jobs }]
    (.ok { run with listings := first ++ run.listings }, site)

end Run

end NodeFencing
