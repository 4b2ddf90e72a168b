import NodeFencing.FencingError
import NodeFencing.Program

/-!
# Failures of tasks

What a task meets when it works on a cluster.  Unlike misconfiguration, most of it may
go away by trying again.

## Main Definitions

* `ApiError` — why a call of the cluster has failed
* `TaskError` — why a task has failed
* `TaskError.meansExists`, `TaskError.isConflict` — failures that a task has to tell apart
* `Task` — a program that may fail
-/

namespace NodeFencing

/-- Why a call of the cluster has failed. -/
inductive ApiError where
  /-- The cluster has refused it. -/
  | refused (code : Nat)
  /-- The call or its answer makes no sense. -/
  | unintelligible
  deriving Repr, DecidableEq, Inhabited

/-- Why a task has failed. -/
inductive TaskError where
  | api (e : ApiError)
  | fencing (e : FencingError)
  /-- An object that was to be created exists. -/
  | alreadyExists (name : String)
  /-- An object that was to be changed has changed since it was read. -/
  | conflict (name : String)
  deriving Repr, DecidableEq, Inhabited

namespace TaskError

/-- The wording of a failure. -/
def message : TaskError → String
  | api _ => "Kubernetes API error"
  | fencing e => "Fencing error: " ++ e.message
  | alreadyExists name => name ++ " already exists"
  | conflict name => name ++ " was modified concurrently"

/-- Whether a failure to create an object means that it exists. -/
def meansExists : TaskError → Bool
  | alreadyExists _ => true
  | api (.refused code) => code == 409
  | _ => false

/-- Whether a write was refused because the object has changed since it was read. -/
def isConflict : TaskError → Bool
  | conflict _ => true
  | _ => false

end TaskError

/-- A program that may fail. -/
abbrev Task (I : Interface) (α : Type) := ExceptT TaskError (Program I) α

/-- Read the clock. -/
def Task.now : Task I Instant :=
  ExceptT.lift Program.now

end NodeFencing
