import NodeFencing.Api.Script
import NodeFencing.Api.Watch
import NodeFencing.Object.ConfigMap
import NodeFencing.Registry

/-!
# Sources of configurations

Config maps hold the configurations.  The registry follows them: by loading them all, or
by watching how they change.  A source that cannot be used keeps its last good
configuration, and only a source that is gone loses it.

## Main Definitions

* `Registry.take` — take over the configuration of a config map
* `Registry.load` — take over all config maps, and no others
* `Follower.step` — follow a report of a watch
* `Follower.follow` — follow many reports
* `listSources`, `Registry.watch` — list and follow the config maps of a cluster
-/

namespace NodeFencing

/-! ### Loading -/

/-- The configuration that a config map holds. -/
def ConfigMap.config (source : ConfigMap) (key : String) : Except FencingError Config :=
  let name := source.metadata.nameOrBase
  match source.data.get? key with
  | some text => Config.ofYaml name text
  | none => .error (.missingData name key)

/-- Take over the configuration of a config map, if it holds one that is usable. -/
def Registry.take (r : Registry) (source : ConfigMap) (key : String) : Bool × Registry :=
  match source.config key with
  | .ok config => (true, r.insert config)
  | .error _ => (false, r)

/-- Take over the configurations of all config maps, and drop those of others. -/
def Registry.load (r : Registry) (sources : List ConfigMap) (key : String) : Registry :=
  let taken := sources.foldl (fun r source => (r.take source key).2) r
  taken.resync (sources.map fun source => source.metadata.name.getD "")

/-! ### Watching -/

/-- The registry with the names that were listed so far. -/
structure Follower where
  registry : Registry := {}
  listed : List String := []
  deriving Repr, DecidableEq, Inhabited

/-- Follow a report. -/
def Follower.step (f : Follower) (key : String) : Change ConfigMap → Follower
  | .listing => { f with listed := [] }
  | .listed source =>
    { registry := (f.registry.take source key).2
      listed := f.listed ++ [source.metadata.nameOrBase] }
  | .settled => { f with registry := f.registry.resync f.listed }
  | .applied source => { f with registry := (f.registry.take source key).2 }
  | .deleted source => { f with registry := f.registry.remove source.metadata.nameOrBase }

/-- Follow reports one after another. -/
def Follower.follow (f : Follower) (key : String) (changes : List (Change ConfigMap)) : Follower :=
  changes.foldl (·.step key) f

/-! ### In a cluster -/

/-- The config maps of a namespace that meet a selector. -/
def listSources (inNamespace selector : String) :
    Program Api.Wire (Except TaskError (List ConfigMap)) :=
  (Api.list ConfigMap inNamespace (Api.labelQuery selector)).asTask none

/-- Follow the replies of a script as far as they go.  A reply that never comes is waited for. -/
def Registry.watch (r : Registry) (key : String) (s : Api.Script) : Registry × Api.Script :=
  let (changes, left) := Api.WatchPhase.start.follow s.replies
  let follower : Follower := { registry := r }
  ((follower.follow key changes).registry, { s with replies := left })

end NodeFencing
