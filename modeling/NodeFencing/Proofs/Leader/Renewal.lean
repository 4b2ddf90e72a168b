import NodeFencing.Leader.Renewal
import NodeFencing.Proofs.Time

/-!
# How a leader goes on

What is left of a leader when an attempt to renew the lease has ended.

## Main Definitions

* `Renewal.alarm` — when a leader acts next

## Main statements

* `Renewal.due?_eq_some` — when the next attempt begins
* `Renewal.attempt_leading` — a leader that goes on behind an attempt
-/

namespace NodeFencing

namespace Renewal

variable {r r' : Renewal} {start took : Duration}

/-- When a leader acts next: it begins an attempt, or ceases to lead. -/
def alarm (r : Renewal) : Duration :=
  r.due?.getD r.deadline

theorem due?_eq_some : r.due? = some start ↔ start = r.wake ∧ start < r.deadline := by
  rw [due?]
  split
  case isTrue h =>
    constructor
    · rintro ⟨⟩
      exact ⟨rfl, h⟩
    · rintro ⟨rfl, -⟩
      rfl
  case isFalse h =>
    constructor
    · rintro ⟨⟩
    · rintro ⟨rfl, hlt⟩
      exact absurd hlt h

/-- The first attempt begins at once. -/
theorem due?_start {s : LeaderSettings} (h : 0 < s.renewDeadline.nanos) (time : Duration) :
    (Renewal.start s time).due? = some time := by
  have hlt : time.nanos < time.nanos + s.renewDeadline.nanos := Nat.lt_add_of_pos_right h
  exact due?_eq_some.2 ⟨(if_neg (Nat.lt_irrefl _)).symm, hlt⟩

/-- A leader does not begin an attempt before the last one has ended. -/
theorem time_le_wake (r : Renewal) : r.time ≤ r.wake := by
  rw [wake]
  split
  case isTrue h => exact Nat.le_refl _
  case isFalse h => exact Nat.not_lt.1 h

theorem alarm_le_deadline (r : Renewal) : r.alarm ≤ r.deadline := by
  rw [alarm]
  cases hdue : r.due? with
  | none => exact Nat.le_refl _
  | some start => exact Nat.le_of_lt (due?_eq_some.1 hdue).2

/-- A leader goes on behind an attempt only if it succeeds before the deadline, or fails before
it. -/
theorem attempt_leading {result : Except LeaseError Unit} (hdue : r.due? = some start)
    (h : r.attempt (.ofResult took result) = .leading r') :
    (result = .ok () ∧ r' = { r.resume (start + took) with lastRenewed := start }) ∨
      r' = r.resume (start + took) := by
  rw [attempt, hdue] at h
  match result with
  | .ok () =>
    simp only [Attempt.ofResult, overdue] at h
    split at h
    · cases h
    · exact .inl ⟨rfl, (Tenure.leading.inj h).symm⟩
  | .error (.takenOver holder) =>
    simp only [Attempt.ofResult, overdue] at h
    split at h <;> cases h
  | .error (.api _) | .error (.held _) | .error (.overdue _) =>
    simp only [Attempt.ofResult, overdue] at h
    split at h
    · cases h
    · exact .inr (Tenure.leading.inj h).symm

end Renewal

end NodeFencing
