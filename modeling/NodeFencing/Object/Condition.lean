import NodeFencing.Json.Decode

/-!
# Conditions

## Main Definitions

* `Condition` — a statement about an object that holds or does not
* `conditionOf?` — the statement of a type among several
-/

namespace NodeFencing

/-- A statement about an object, such as that a job is complete. -/
structure Condition where
  type : String := ""
  /-- Whether it holds: True, False or Unknown. -/
  status : String := ""
  lastTransition : Option Instant := none
  deriving Repr, DecidableEq, Inhabited

/-- The first condition of a type. -/
def conditionOf? (type : String) (conditions : List Condition) : Option Condition :=
  conditions.find? (·.type == type)

open Json (Decoder)
open Json.Decoder (field instant? record text)

namespace Condition

def decoder : Decoder Condition :=
  record [
    field "type" text fun x c => { c with type := x },
    field "status" text fun x c => { c with status := x },
    field "lastTransitionTime" instant? fun x c => { c with lastTransition := x }
  ] [] {}

def toJson (c : Condition) : Json :=
  .ofMembers [
    ("lastTransitionTime", c.lastTransition.map fun t => .string t.textInSeconds),
    ("status", some (.string c.status)), ("type", some (.string c.type))]

end Condition

end NodeFencing
