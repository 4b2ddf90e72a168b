import NodeFencing.Simulation.Run

/-!
# The course of a controller

A controller is started on a cluster to which things happen at given times.  What it
writes is told apart by these times.

## Main Definitions

* `Undertaking` — a controller at work, or one that could not start
* `Undertaking.course` — what it writes before each incident, and in the end
-/

namespace NodeFencing

/-- A controller at work, or one that could not start. -/
inductive Undertaking where
  | running (r : Run)
  | failed (e : TaskError) (site : Site)

namespace Undertaking

/-- Start a controller that only watches nodes. -/
def monitor (site : Site) (settings : Settings) : Undertaking :=
  running (Run.monitoring site settings)

/-- Start a whole controller. -/
def controller (site : Site) (settings : Settings) : Undertaking :=
  match Run.controlling site settings with
  | (.ok r, _) => running r
  | (.error e, site) => failed e site

/-- The cluster and the registry. -/
def site : Undertaking → Site
  | running r => r.site
  | failed _ site => site

/-- Change the cluster. -/
def modify (u : Undertaking) (change : Site → Site) : Undertaking :=
  match u with
  | running r => running { r with site := change r.site }
  | failed e site => failed e (change site)

/-- Do everything that is due before a time. -/
def runTo (u : Undertaking) (limit : Duration) : Undertaking :=
  match u with
  | running r => running (r.runTo limit)
  | failed e site => failed e site

/-- What was written, which is then forgotten. -/
def takeWrites (u : Undertaking) : List Api.Call × Undertaking :=
  (u.site.server.takeWrites.1,
    u.modify fun site => { site with server := site.server.takeWrites.2 })

/-- What is written before each incident, and until the end, with the state then. -/
def course (u : Undertaking) (limit : Duration) :
    List (Duration × Incident) → List (List Api.Call) × Undertaking
  | [] =>
    let (writes, u) := (u.runTo limit).takeWrites
    ([writes], u)
  | (time, incident) :: rest =>
    let (writes, u) := (u.runTo time).takeWrites
    let (more, u) := course (u.modify (·.meet incident)) limit rest
    (writes :: more, u)

end Undertaking

end NodeFencing
