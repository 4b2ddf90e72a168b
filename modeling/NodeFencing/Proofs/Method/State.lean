import Mathlib.Data.List.Basic
import Mathlib.Order.MinMax
import Mathlib.Order.Nat
import NodeFencing.Proofs.Method.Job

/-!
# How far several jobs have come

The states of jobs are ordered: without a job nothing is reached, a job that has failed is
better than none, one that runs may still succeed, and a success is all that can be reached.
Several jobs that do the same work have come as far as the one that has come farthest.  So
their state is the join of theirs, and all that is known of joins is true of it: it is found
part by part, in any order, and a further job never makes it worse.

The state of one job is that of its first condition which says how it has ended.  The numbers
of its pods are looked at only if there is no such condition.

## Main Definitions

* `JobState.rank` — the place of a state in the order
* `Condition.Ends`, `Condition.verdict` — the conditions that say how a job has ended

## Main statements

* `methodState_le_iff` — the state of several jobs is the least that none of theirs exceeds
* `methodState_append`, `methodState_mono` — the state of more jobs
* `Job.state_of_ends` — the condition that decides
* `methodState_joins` — the state of several jobs is the join of theirs
-/

namespace NodeFencing

/-! ### The order of states -/

namespace JobState

/-- The place of a state in the order: the farther a job has come, the higher. -/
def rank : JobState → ℕ
  | missing => 0
  | failed => 1
  | running => 2
  | succeeded => 3

theorem rank_injective : Function.Injective rank := by
  intro a b h
  cases a <;> cases b <;> simp [rank] at h ⊢

instance : LinearOrder JobState :=
  LinearOrder.lift' rank rank_injective

instance : OrderBot JobState where
  bot := missing
  bot_le s := Nat.zero_le s.rank

theorem le_succeeded (s : JobState) : s ≤ succeeded := by
  cases s <;> decide

theorem le_running {s : JobState} (h : s ≠ succeeded) : s ≤ running := by
  cases s with
  | succeeded => exact absurd rfl h
  | _ => decide

/-- What neither runs nor has succeeded has failed at best. -/
theorem le_failed {s : JobState} (h : s ≠ succeeded) (h' : s ≠ running) : s ≤ failed := by
  cases s with
  | succeeded => exact absurd rfl h
  | running => exact absurd rfl h'
  | _ => decide

end JobState

/-! ### Several jobs -/

section Several

variable {a b jobs : List Job} {j : Job} {state : JobState}

/-- No job has come farther than all of them together. -/
theorem Job.state_le_methodState (hj : j ∈ jobs) : j.state ≤ methodState jobs := by
  have nonempty : jobs.isEmpty = false := List.isEmpty_eq_false_iff_exists_mem.mpr ⟨j, hj⟩
  have hstate : j.state ∈ jobs.map Job.state := List.mem_map_of_mem hj
  simp only [methodState, nonempty, Bool.false_eq_true, if_false, List.contains_iff_mem]
  split
  · exact j.state.le_succeeded
  · next noSuccess =>
      have notSucceeded : j.state ≠ .succeeded := fun h => noSuccess (h ▸ hstate)
      split
      · exact JobState.le_running notSucceeded
      · next noneRuns => exact JobState.le_failed notSucceeded fun h => noneRuns (h ▸ hstate)

/-- One of several jobs has come as far as all of them together. -/
theorem exists_state_eq_methodState (hne : jobs ≠ []) :
    ∃ j ∈ jobs, j.state = methodState jobs := by
  have nonempty : jobs.isEmpty = false := by simpa using hne
  simp only [methodState, nonempty, Bool.false_eq_true, if_false, List.contains_iff_mem]
  split
  · next success => exact List.mem_map.mp success
  · next noSuccess =>
      split
      · next runs => exact List.mem_map.mp runs
      · next noneRuns =>
          obtain ⟨j, rest, rfl⟩ := List.exists_cons_of_ne_nil hne
          refine ⟨j, List.mem_cons_self, ?_⟩
          have hstate : j.state ∈ (j :: rest).map Job.state :=
            List.mem_map_of_mem List.mem_cons_self
          -- Of the four states, the other three are excluded.
          cases h : j.state with
          | failed => rfl
          | succeeded => exact absurd (h ▸ hstate) noSuccess
          | running => exact absurd (h ▸ hstate) noneRuns
          | missing => exact absurd h j.state_ne_missing

/-- **The state of several jobs** is the least that none of theirs exceeds. -/
theorem methodState_le_iff : methodState jobs ≤ state ↔ ∀ j ∈ jobs, j.state ≤ state := by
  refine ⟨fun h j hj => (Job.state_le_methodState hj).trans h, fun h => ?_⟩
  rcases eq_or_ne jobs [] with rfl | hne
  · exact bot_le
  · obtain ⟨j, hj, heq⟩ := exists_state_eq_methodState hne
    exact heq ▸ h j hj

/-- The state of the jobs of two lists is the better one of theirs. -/
theorem methodState_append (a b : List Job) :
    methodState (a ++ b) = max (methodState a) (methodState b) :=
  eq_of_forall_ge_iff fun state => by
    simp only [methodState_le_iff, max_le_iff, List.forall_mem_append]

/-- More jobs are not in a worse state. -/
theorem methodState_mono (hsub : a ⊆ b) : methodState a ≤ methodState b :=
  methodState_le_iff.mpr fun _ hj => Job.state_le_methodState (hsub hj)

/-- Only which jobs there are counts, not their order or how often one is named. -/
theorem methodState_congr (h : ∀ j, j ∈ a ↔ j ∈ b) : methodState a = methodState b :=
  (methodState_mono fun j => (h j).mp).antisymm (methodState_mono fun j => (h j).mpr)

end Several

/-! ### One job -/

namespace Condition

/-- A condition that says how a job has ended. -/
def Ends (c : Condition) : Prop :=
  c.status = "True" ∧ (c.type = "Complete" ∨ c.type = "Failed")

/-- How a job has ended by such a condition. -/
def verdict (c : Condition) : JobState :=
  if c.type = "Complete" then .succeeded else .failed

variable {c : Condition}

theorem outcome?_of_ends (h : c.Ends) : c.outcome? = some c.verdict := by
  obtain ⟨status, complete | failed⟩ := h
  · simp [outcome?, verdict, status, complete]
  · simp [outcome?, verdict, status, failed]

theorem outcome?_of_not_ends (h : ¬ c.Ends) : c.outcome? = none := by
  unfold outcome?
  by_cases status : c.status = "True"
  · have other : ¬ (c.type = "Complete" ∨ c.type = "Failed") := fun type => h ⟨status, type⟩
    rw [not_or] at other
    simp [other.1, other.2]
  · simp [status]

end Condition

/-- **The condition that decides** is the first one that says how the job has ended. -/
theorem Job.state_of_ends {j : Job} {status : JobStatus} {front back : List Condition}
    {c : Condition} (hstatus : j.status = some status)
    (conditions : status.conditions = some (front ++ c :: back))
    (first : ∀ c' ∈ front, ¬ c'.Ends) (ends : c.Ends) : j.state = c.verdict := by
  have decides : (front ++ c :: back).findSome? Condition.outcome? = some c.verdict := by
    have skipped : front.findSome? Condition.outcome? = none :=
      List.findSome?_eq_none_iff.mpr fun c' hc' => Condition.outcome?_of_not_ends (first c' hc')
    simp [List.findSome?_append, skipped, Condition.outcome?_of_ends ends]
  simp [state, hstatus, JobStatus.state, conditions, decides]

/-! ### All together -/

/-- **The state of several jobs is the join of theirs.**  Without a job it is the least state; for
two lists it is the greater one of theirs; and for one job it is the state of this job.  A job that
exists is in a state other than the least, and its first condition that says how it has ended
decides which, whatever the numbers of its pods are.  So the order of jobs and their repetition do
not count, and further jobs do not make the state worse. -/
theorem methodState_joins :
    (JobState.missing < .failed ∧ JobState.failed < .running ∧ JobState.running < .succeeded) ∧
    methodState [] = .missing ∧
    (∀ a b, methodState (a ++ b) = max (methodState a) (methodState b)) ∧
    (∀ j : Job, methodState [j] = j.state ∧ j.state ≠ .missing ∧
      ∀ front c back active succeeded failed,
        j.status = some ⟨some (front ++ c :: back), active, succeeded, failed⟩ →
          (∀ c' ∈ front, ¬ Condition.Ends c') → c.Ends →
            j.state = if c.type = "Complete" then .succeeded else .failed) ∧
    (∀ a b, (∀ j, j ∈ a ↔ j ∈ b) → methodState a = methodState b) ∧
    ∀ a b, a ⊆ b → methodState a ≤ methodState b := by
  refine ⟨by decide, rfl, methodState_append, fun j => ?_, fun _ _ => methodState_congr,
    fun _ _ => methodState_mono⟩
  refine ⟨methodState_singleton j, j.state_ne_missing, ?_⟩
  intro front c back active succeeded failed hstatus first ends
  exact Job.state_of_ends hstatus rfl first ends

/-- A job that has failed although one of its pods has succeeded, as its conditions say. -/
def overruled : Job where
  status := some {
    conditions := some [⟨"Complete", "False", none⟩, ⟨"Failed", "True", none⟩,
      ⟨"Complete", "True", none⟩]
    succeeded := some 1 }

/-- Beside a job that has just been created it does not count, in whatever order the two are
listed. -/
theorem methodState_joins_overruled :
    overruled.state = .failed ∧ methodState [overruled] ≤ methodState [{}, overruled] ∧
      methodState [overruled, {}, overruled] = methodState [{}, overruled] := by
  obtain ⟨-, -, -, single, congr, mono⟩ := methodState_joins
  have skipped : ∀ c' ∈ [(⟨"Complete", "False", none⟩ : Condition)], ¬ c'.Ends := by
    rintro c' hc' ⟨status, -⟩
    rw [List.mem_singleton.mp hc'] at status
    exact absurd status (by decide)
  refine ⟨?_, mono _ _ fun j hj => List.mem_cons_of_mem _ hj, congr _ _ fun j => ?_⟩
  · exact (single overruled).2.2 _ _ _ _ _ _ rfl skipped ⟨rfl, .inr rfl⟩
  · simp only [List.mem_cons, List.not_mem_nil, or_false]
    grind

end NodeFencing
