import NodeFencing.Config.Validate

/-!
# Registry of configurations

The registry holds the configurations that are known, each under the name of its source,
in the order in which they came.  A source that cannot be used leaves the registry as it
is.

## Main Definitions

* `Snapshot` — configurations in order
* `Snapshot.select` — the configuration for a node
* `Registry` — the configurations that are known
* `Registry.upsert`, `Registry.remove`, `Registry.resync` — changes of the registry
-/

namespace NodeFencing

/-! ### Selection -/

/-- Configurations in order. -/
abbrev Snapshot := List Config

namespace Snapshot

/-- The first configuration of a name. -/
def get? (s : Snapshot) (name : String) : Option Config :=
  s.find? (·.name == name)

/-- The better one of the best configuration so far and a later one.  The later one has to ask for
more labels. -/
def better (best : Option Config) (candidate : Config) : Option Config :=
  match best with
  | some current => if candidate.specificity ≤ current.specificity then best else some candidate
  | none => some candidate

/-- The first of the configurations for a node that ask for the most labels. -/
def best? (s : Snapshot) (labels : StringMap String) : Option Config :=
  (s.filter (·.selects labels)).foldl better none

/-- The configuration for a node: the one chosen before, as long as it is there, or else the best
one. -/
def select (s : Snapshot) (chosen : Option String) (target : String) (labels : StringMap String) :
    Except FencingError Config :=
  match (chosen.bind s.get?) <|> s.best? labels with
  | some config => .ok config
  | none => .error (.noConfig target)

end Snapshot

/-! ### Registry -/

/-- The configurations that are known, by the names of their sources. -/
structure Registry where
  entries : StringMap Config := []
  deriving Repr, DecidableEq, Inhabited

namespace Registry

/-- The configurations in order. -/
def snapshot (r : Registry) : Snapshot :=
  r.entries.map (·.2)

/-- The names in order. -/
def names (r : Registry) : List String :=
  r.entries.keys

/-- How many configurations are known. -/
def size (r : Registry) : Nat :=
  r.entries.length

/-- The configuration of a source. -/
def get? (r : Registry) (name : String) : Option Config :=
  r.entries.get? name

/-- Add a configuration, in place of one of the same name. -/
def insert (r : Registry) (c : Config) : Registry where
  entries := r.entries.put c.name c

/-- Read the text of a source and add its configuration. -/
def upsert (r : Registry) (name text : String) : Except FencingError Registry :=
  (Config.ofYaml name text).map r.insert

/-- Remove the configuration of a source. -/
def remove (r : Registry) (name : String) : Registry where
  entries := r.entries.erase name

/-- Remove the configurations whose sources are not among the given ones. -/
def resync (r : Registry) (names : List String) : Registry where
  entries := r.entries.filter fun entry => names.contains entry.1

end Registry

end NodeFencing
