import NodeFencing.Decimal.Basic
import NodeFencing.Program
import NodeFencing.Width

/-!
# Trying again

What fails is tried again a limited number of times, after pauses that grow.

## Main Definitions

* `Backoff` — how often and after which pauses
* `Backoff.delay` — the pause behind an attempt
* `Program.retry` — try until success, or until the attempts are used up
-/

namespace NodeFencing

/-- How often something is tried, and the pauses between. -/
structure Backoff where
  /-- The first pause. -/
  initial : Duration := Duration.ofSeconds 1
  /-- By how much each pause is longer than the one before. -/
  factor : Float := 1.2
  steps : Nat := 5
  deriving Repr, Inhabited

/-- The power `base ^ exponent`, times `product`, by repeated squaring. -/
def floatPower (product base : Float) (exponent : Nat) : Float :=
  let product := if exponent % 2 == 1 then product * base else product
  if h : exponent / 2 = 0 then product
  else floatPower product (base * base) (exponent / 2)
termination_by exponent
decreasing_by omega

namespace Backoff

/-- How often something is tried: once at least. -/
def attempts (b : Backoff) : Nat :=
  max b.steps 1

/-- The nanoseconds of a double: rounded, a half up, and at most 2^64 - 1.  What is not a number
counts as too large. -/
def nanosOf (x : Float) : Nat :=
  let rounded := x.round
  if rounded.isNaN then greatestUnsigned 64 else rounded.toUInt64.toNat

/-- The pause behind an attempt, the first of which has number one.  Pauses never become shorter. -/
def delay (b : Backoff) (attempt : Nat) : Duration where
  nanos :=
    let factor := if 1.0 ≤ b.factor then b.factor else 1.0
    let exponent := min (attempt - 1) (greatestSigned 32)
    nanosOf (Float.ofScientific b.initial.nanos false 0 * floatPower 1.0 factor exponent)

end Backoff

/-- Try an operation, and if it fails, some times more; `attempt` is the number of the first
attempt. -/
def Program.retryFrom (b : Backoff) (operation : Program I (Except ε α)) (attempt : Nat) :
    Nat → Program I (Except ε α)
  | 0 => operation
  | more + 1 => operation.bind fun
    | .ok a => .done (.ok a)
    | .error _ => .pause (b.delay attempt) (retryFrom b operation (attempt + 1) more)

/-- Try an operation until it succeeds or the attempts are used up; the last failure counts. -/
def Program.retry (b : Backoff) (operation : Program I (Except ε α)) :
    Program I (Except ε α) :=
  retryFrom b operation 1 (b.attempts - 1)

end NodeFencing
