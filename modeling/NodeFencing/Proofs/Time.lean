import NodeFencing.Time.Instant

/-!
# Spans of time

Spans are compared and added by their nanoseconds.

Between two instants the clock may show a leap second.  To an instant that is still to come
there is then some time left, unless the clock is in a leap second now: such a second has no
number of its own, and the one behind it may begin at once.

Apart from leap seconds, instants are numbered by the nanoseconds from 1970 on, and a span
is the difference of two such numbers.

## Main Definitions

* `Instant.total` — the number of an instant
* `Instant.after` — the instant some time later

## Main statements

* `Instant.since_pos` — the time that is left to a later instant
* `Instant.nanos_since`, `Instant.lt_iff_total`, `Instant.le_iff_total` — spans and order apart from
  leap seconds
* `Instant.since_after`, `Instant.after_lt_iff` — what is left some time later
-/

namespace NodeFencing

namespace Duration

theorem le_iff {d d' : Duration} : d ≤ d' ↔ d.nanos ≤ d'.nanos :=
  Iff.rfl

theorem lt_iff {d d' : Duration} : d < d' ↔ d.nanos < d'.nanos :=
  Iff.rfl

@[simp] theorem nanos_add (d d' : Duration) : (d + d').nanos = d.nanos + d'.nanos :=
  rfl

@[simp] theorem nanos_sub (d d' : Duration) : (d - d').nanos = d.nanos - d'.nanos :=
  rfl

theorem ext {d d' : Duration} (h : d.nanos = d'.nanos) : d = d' := by
  cases d
  exact congrArg mk h

variable (d e f : Duration)

theorem add_lt_iff : d + e < f ↔ e < f - d := by
  rw [lt_iff, lt_iff, nanos_add, nanos_sub]
  omega

theorem sub_add : f - (d + e) = f - d - e := by
  refine ext ?_
  rw [nanos_sub, nanos_add, nanos_sub, nanos_sub]
  omega

end Duration

namespace Instant

/-- **To a later instant there is some time left**, unless it is counted from a leap second. -/
theorem since_pos {now t : Instant} (h : now < t) (regular : now.inLeapSecond = false) :
    0 < (t.since now).nanos := by
  have hnow : now.nanos < Duration.second := by simpa [inLeapSecond] using regular
  have hlater : now.seconds < t.seconds ∨ now.seconds = t.seconds ∧ now.nanos < t.nanos := h
  simp only [since, nanosBetween, regular, Duration.second] at hnow ⊢
  split
  · simp only [Bool.false_eq_true, if_false]
    omega
  · split
    · next hday =>
        -- The other time of day is that of another second, so this one is behind the present one.
        have hne : now.seconds ≠ t.seconds := fun heq => by simp [heq] at hday
        split
        · next hleap =>
            have hnanos : 1000000000 ≤ t.nanos := of_decide_eq_true hleap
            omega
        · omega
    · omega

/-- Nanoseconds from 1 January 1970 on, if leap seconds are left out. -/
def total (t : Instant) : Int :=
  t.seconds * (Duration.second : Int) + t.nanos

/-- The instant some time later, if there is no leap second. -/
def after (t : Instant) (d : Duration) : Instant where
  seconds := t.seconds + (t.nanos + d.nanos) / Duration.second
  nanos := (t.nanos + d.nanos) % Duration.second

variable {a b : Instant}

/-- **A span is the difference of two numbers**, or nothing if this is negative. -/
theorem nanos_since (ha : a.inLeapSecond = false) (hb : b.inLeapSecond = false) :
    (b.since a).nanos = (b.total - a.total).toNat := by
  simp only [since, nanosBetween, ha, hb, total, Bool.false_eq_true, if_false, ite_self]
  congr 1
  rw [Int.add_zero, Int.sub_mul]
  omega

theorem lt_iff_total (ha : a.inLeapSecond = false) (hb : b.inLeapSecond = false) :
    a < b ↔ a.total < b.total := by
  have ha' : a.nanos < Duration.second := by simpa [inLeapSecond] using ha
  have hb' : b.nanos < Duration.second := by simpa [inLeapSecond] using hb
  show a.seconds < b.seconds ∨ a.seconds = b.seconds ∧ a.nanos < b.nanos ↔ _
  simp only [Duration.second, total] at *
  omega

theorem not_lt : ¬ a < b ↔ b ≤ a := by
  show ¬ (a.seconds < b.seconds ∨ a.seconds = b.seconds ∧ a.nanos < b.nanos) ↔
    b.seconds < a.seconds ∨ b.seconds = a.seconds ∧ b.nanos ≤ a.nanos
  omega

theorem le_iff_total (ha : a.inLeapSecond = false) (hb : b.inLeapSecond = false) :
    a ≤ b ↔ a.total ≤ b.total := by
  rw [← not_lt, lt_iff_total hb ha, Int.not_lt]

section After

variable (t : Instant) (d : Duration)

theorem inLeapSecond_after : (t.after d).inLeapSecond = false := by
  have hlt : (t.nanos + d.nanos) % Duration.second < Duration.second :=
    Nat.mod_lt _ (by decide)
  exact decide_eq_false (Nat.not_le.mpr hlt)

theorem total_after : (t.after d).total = t.total + d.nanos := by
  simp only [total, after, Duration.second]
  omega

/-- What is over remains so. -/
theorem le_after (ha : a.inLeapSecond = false) (ht : t.inLeapSecond = false) (h : a ≤ t) :
    a ≤ t.after d := by
  rw [le_iff_total ha ht] at h
  rw [le_iff_total ha (t.inLeapSecond_after d), total_after]
  omega

variable {t}

/-- Some time later there is so much less left. -/
theorem since_after (ht : t.inLeapSecond = false) (ha : a.inLeapSecond = false) :
    a.since (t.after d) = a.since t - d := by
  refine Duration.ext ?_
  rw [Duration.nanos_sub, nanos_since ht ha, nanos_since (t.inLeapSecond_after d) ha, total_after]
  omega

/-- It is still too early as long as there is some time left. -/
theorem after_lt_iff (ht : t.inLeapSecond = false) (ha : a.inLeapSecond = false) :
    t.after d < a ↔ d < a.since t := by
  rw [lt_iff_total (t.inLeapSecond_after d) ha, total_after, Duration.lt_iff, nanos_since ht ha]
  omega

end After

end Instant

end NodeFencing
