/-!
# Spans of time

## Main Definitions

* `Duration` — a span of time, in nanoseconds
* `Duration.ofSeconds`, `Duration.ofMillis` — spans in larger units
-/

namespace NodeFencing

/-- A span of time that is not negative. -/
structure Duration where
  nanos : Nat := 0
  deriving Repr, DecidableEq, Inhabited

namespace Duration

/-- Nanoseconds in a second. -/
def second : Nat := 1000000000

/-- A number of seconds. -/
def ofSeconds (n : Nat) : Duration where
  nanos := n * second

/-- A number of milliseconds. -/
def ofMillis (n : Nat) : Duration where
  nanos := n * 1000000

/-- The whole seconds. -/
def seconds (d : Duration) : Nat :=
  d.nanos / second

/-- The nanoseconds beyond the whole seconds. -/
def subsecond (d : Duration) : Nat :=
  d.nanos % second

/-- The whole milliseconds. -/
def millis (d : Duration) : Nat :=
  d.nanos / 1000000

instance : Add Duration where
  add a b := ⟨a.nanos + b.nanos⟩

instance : Sub Duration where
  sub a b := ⟨a.nanos - b.nanos⟩

instance : LT Duration where
  lt a b := a.nanos < b.nanos

instance : LE Duration where
  le a b := a.nanos ≤ b.nanos

instance (a b : Duration) : Decidable (a < b) :=
  inferInstanceAs (Decidable (a.nanos < b.nanos))

instance (a b : Duration) : Decidable (a ≤ b) :=
  inferInstanceAs (Decidable (a.nanos ≤ b.nanos))

end Duration

end NodeFencing
