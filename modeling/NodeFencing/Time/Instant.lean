import NodeFencing.Time.Calendar
import NodeFencing.Time.Duration

/-!
# Points in time

An instant is a second of universal time and a fraction of it.  A leap second has no
number of its own: it is the second before it with a fraction of one second or more.
Spans that begin or end in a leap second still count it.

## Main Definitions

* `Instant` — a point in time
* `Instant.since` — the span between two instants, nothing if the second is the later one
* `Instant.plusSeconds` — the instant some seconds later or earlier
* `Instant.inMicros` — the instant in whole microseconds
-/

namespace NodeFencing

/-- A point in time: whole seconds from 1 January 1970 and nanoseconds, of which a leap second has
one second or more. -/
structure Instant where
  seconds : Int
  nanos : Nat := 0
  deriving Repr, DecidableEq, Inhabited

namespace Instant

/-- Seconds in a day. -/
def day : Int := 86400

/-- Whether an instant lies in a leap second. -/
def inLeapSecond (t : Instant) : Bool :=
  Duration.second ≤ t.nanos

instance : LT Instant where
  lt a b := a.seconds < b.seconds ∨ (a.seconds = b.seconds ∧ a.nanos < b.nanos)

instance : LE Instant where
  le a b := a.seconds < b.seconds ∨ (a.seconds = b.seconds ∧ a.nanos ≤ b.nanos)

instance (a b : Instant) : Decidable (a < b) :=
  inferInstanceAs (Decidable (_ ∨ _))

instance (a b : Instant) : Decidable (a ≤ b) :=
  inferInstanceAs (Decidable (_ ∨ _))

/-- Nanoseconds from one instant to another.  A leap second counts if it is behind the earlier time
of day of the two. -/
def nanosBetween (earlier later : Instant) : Int :=
  let timeOfDay := fun (t : Instant) => t.seconds % day
  let leap : Int :=
    if timeOfDay earlier < timeOfDay later then if earlier.inLeapSecond then 1 else 0
    else if timeOfDay later < timeOfDay earlier then if later.inLeapSecond then -1 else 0
    else 0
  (later.seconds - earlier.seconds + leap) * Duration.second + later.nanos - earlier.nanos

/-- The span since an earlier instant; nothing if it is not earlier. -/
def since (later earlier : Instant) : Duration where
  nanos := (nanosBetween earlier later).toNat

/-- The instant some seconds later, or earlier if the number is negative.  A leap second is left by
any such step. -/
def plusSeconds (t : Instant) (n : Int) : Instant :=
  if t.inLeapSecond then
    if n = 0 then t
    else if 0 < n then ⟨t.seconds + n, t.nanos - Duration.second⟩
    else ⟨t.seconds + 1 + n, t.nanos - Duration.second⟩
  else ⟨t.seconds + n, t.nanos⟩

/-- The instant in whole microseconds, without what is beyond them. -/
def inMicros (t : Instant) : Instant :=
  { t with nanos := t.nanos / 1000 * 1000 }

theorem inMicros_inMicros (t : Instant) : t.inMicros.inMicros = t.inMicros := by
  simp [inMicros]

end Instant

end NodeFencing
