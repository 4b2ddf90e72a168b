import NodeFencing.Monitor.Health
import NodeFencing.Proofs.Time

/-!
# When a node counts as failed or healthy

The health of a node is judged from its first condition of type Ready, and from nothing else.
It has failed only if this condition says neither that the node is ready nor that it is not,
and has said so for longer than the time that is given to it.  The time is counted from the
last transition; without one it begins now, and so is never up.

## Main Definitions

* `Node.Lost` — a node that has not been heard of for too long
* `Node.ReadySince` — a node that is ready

## Main statements

* `Instant.since_self` — no time passes from an instant to itself
* `Node.lost_iff`, `Node.readySince_iff` — health in terms of the condition
-/

namespace NodeFencing

theorem Instant.since_self (t : Instant) : t.since t = {} := by
  have hday : ¬ t.seconds % day < t.seconds % day := Int.lt_irrefl _
  have hnone : nanosBetween t t = 0 := by
    simp only [nanosBetween, if_neg hday]
    omega
  rw [since, hnone]
  rfl

namespace Node

variable {n : Node} {now since : Instant} {window : Duration}

/-- A node that has not been heard of for too long: its first condition of type Ready says neither
that it is ready nor that it is not, and the last transition is longer ago than the window. -/
def Lost (n : Node) (now : Instant) (window : Duration) : Prop :=
  ∃ ready since, n.ready? = some ready ∧ ready.status ≠ "True" ∧ ready.status ≠ "False" ∧
    ready.lastTransition = some since ∧ window < now.since since

/-- A node that is ready, since the last transition of its condition if that is known. -/
def ReadySince (n : Node) (since : Option Instant) : Prop :=
  ∃ ready, n.ready? = some ready ∧ ready.status = "True" ∧ ready.lastTransition = since

/-- **A node has failed** if and only if it is lost. -/
theorem lost_iff : n.Lost now window ↔ ∃ since, n.health now window = .failed since := by
  constructor
  · rintro ⟨ready, since, hready, htrue, hfalse, htransition, hlate⟩
    refine ⟨since, ?_⟩
    simp only [health, hready, if_neg htrue, if_neg hfalse, htransition, Option.getD_some]
    exact if_pos hlate
  · rintro ⟨since, hfailed⟩
    unfold health at hfailed
    split at hfailed
    · cases hfailed
    · next ready hready =>
        split at hfailed
        · cases hfailed
        · next htrue =>
            split at hfailed
            · cases hfailed
            · next hfalse =>
                dsimp only at hfailed
                split at hfailed
                · next hlate =>
                    cases htransition : ready.lastTransition with
                    | none =>
                        rw [htransition, Option.getD_none, Instant.since_self] at hlate
                        exact absurd hlate (Nat.not_lt_zero _)
                    | some t =>
                        rw [htransition, Option.getD_some] at hlate
                        exact ⟨ready, t, hready, htrue, hfalse, htransition, hlate⟩
                · cases hfailed

/-- **A node is healthy** if and only if it is ready. -/
theorem readySince_iff {since : Option Instant} :
    n.ReadySince since ↔ n.health now window = .healthy since := by
  constructor
  · rintro ⟨ready, hready, htrue, rfl⟩
    simp only [health, hready, if_pos htrue]
  · intro hhealthy
    unfold health at hhealthy
    split at hhealthy
    · cases hhealthy
    · next ready hready =>
        split at hhealthy
        · next htrue => exact ⟨ready, hready, htrue, NodeHealth.healthy.inj hhealthy⟩
        · split at hhealthy
          · cases hhealthy
          · dsimp only at hhealthy
            split at hhealthy <;> cases hhealthy

end Node

end NodeFencing
