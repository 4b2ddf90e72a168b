import NodeFencing.TaskError

/-!
# Faults of calls

A store that is to be tested can be told to refuse calls, whatever it holds.

## Main Definitions

* `Fault` — what a call meets in place of its effect
* `FaultPlan` — the faults to come, for each kind of call
-/

namespace NodeFencing

/-- What a call meets in place of its effect. -/
inductive Fault where
  /-- Nothing: the call has its effect. -/
  | none
  | refused (code : Nat)
  | exists
  | conflict
  deriving Repr, DecidableEq, Inhabited

/-- The failure of a call on a subject. -/
def Fault.error? (f : Fault) (subject : String) : Option TaskError :=
  match f with
  | none => Option.none
  | refused code => some (.api (.refused code))
  | .exists => some (.alreadyExists subject)
  | conflict => some (.conflict subject)

/-- The faults to come, for each kind of call in the order in which they are met. -/
abbrev FaultPlan (κ : Type) := κ → List Fault

namespace FaultPlan

variable {κ : Type} [DecidableEq κ]

/-- No faults. -/
def empty : FaultPlan κ :=
  fun _ => []

/-- Add faults for a kind of calls. -/
def add (plan : FaultPlan κ) (kind : κ) (faults : List Fault) : FaultPlan κ :=
  fun k => if k = kind then plan k ++ faults else plan k

/-- The fault of the next call of a kind, and the faults behind it. -/
def next (plan : FaultPlan κ) (kind : κ) : Fault × FaultPlan κ :=
  match plan kind with
  | [] => (.none, plan)
  | fault :: rest => (fault, fun k => if k = kind then rest else plan k)

end FaultPlan

end NodeFencing
