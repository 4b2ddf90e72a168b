import NodeFencing.Config.Basic
import NodeFencing.Object.Job
import NodeFencing.Time.Duration

/-!
# Escalation

The methods of a configuration are tried strictly in order: the next one only when the
one before has failed, or when its success does not end the request.  A method may
demand that the request has counted for some time.

## Main Definitions

* `Decision` — what is to be done next
* `Config.candidate` — what to do if a method is the next to be tried
* `Config.nextStep` — what to do, given the method in use and the state of its jobs
-/

namespace NodeFencing

/-- What is to be done next for a request. -/
inductive Decision where
  /-- The method in use is still at work. -/
  | wait (method : String)
  /-- Use the method at a position. -/
  | dispatch (index : Nat) (method : Method)
  /-- The method at a position must not be used yet. -/
  | delay (index : Nat) (remaining : Duration)
  /-- The node is fenced. -/
  | complete (method : String)
  /-- There is no method left. -/
  | exhausted (last : Option String)
  deriving Repr, DecidableEq

/-- How long a request has to have counted before a method is used. -/
def Method.gate (m : Method) : Duration :=
  Duration.ofSeconds (m.requireAfterSeconds.getD 0)

namespace Config

/-- What to do if the method at a position is the next to be tried. -/
def candidate (c : Config) (index : Nat) (elapsed : Duration) (last : Option String) : Decision :=
  match c.methods[index]? with
  | none => .exhausted last
  | some method =>
    if elapsed < method.gate then .delay index (method.gate - elapsed)
    else .dispatch index method

/-- What to do for a request, given the method in use, the state of its jobs and how long the
request has counted.  If the method is not one of the configuration, the first one is next. -/
def nextStep (c : Config) (active : Option String) (state : JobState) (elapsed : Duration) :
    Decision :=
  match active.bind c.method? with
  | none => c.candidate 0 elapsed none
  | some (index, method) =>
    match state with
    | .running => .wait method.name
    | .succeeded =>
      if method.stopOnSuccess || c.methods.length ≤ index + 1 then .complete method.name
      else c.candidate (index + 1) elapsed active
    | .failed | .missing => c.candidate (index + 1) elapsed active

end Config

end NodeFencing
