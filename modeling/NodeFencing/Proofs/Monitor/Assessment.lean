import NodeFencing.Proofs.Monitor.Health

/-!
# The health of a node at a time

The health of a node is a matter of its first condition of type Ready and of the time.  Apart
from leap seconds, instants are numbered by nanoseconds, so the rule can be told in whole
numbers: a node that says nothing has failed if the time since its last transition is more
than the window, and else there is left what the window is longer.  A transition in the
future counts as one that is just over, and what is left is never less than nothing.

The rule is strict.  When all that was left is over, the node is still suspect, and it has
failed at every instant behind that.  A node that has failed does not recover by the passing
of time.

## Main Definitions

* `Node.FirstReady` — the condition that counts
* `Node.Regular` — the times of a node are not leap seconds
* `Node.Assessed` — the rule

## Main statements

* `Node.health_eq_iff` — the health of a node is what the rule says
* `Node.health_exact` — the same, with what the passing of time makes of it
-/

namespace NodeFencing

namespace Node

variable {n : Node} {c : Condition} {now later s : Instant} {window remaining : Duration}
  {h : NodeHealth}

/-! ### The condition that counts -/

/-- The first condition of type Ready among those of a node. -/
def FirstReady (n : Node) (c : Condition) : Prop :=
  ∃ before after, n.conditions = before ++ c :: after ∧ c.type = "Ready" ∧
    ∀ b ∈ before, b.type ≠ "Ready"

theorem ready?_eq_some_iff : n.ready? = some c ↔ n.FirstReady c := by
  unfold ready? conditionOf? FirstReady
  rw [List.find?_eq_some_iff_append]
  constructor
  · rintro ⟨htype, before, after, hconditions, hbefore⟩
    exact ⟨before, after, hconditions, by simpa using htype, by simpa using hbefore⟩
  · rintro ⟨before, after, hconditions, htype, hbefore⟩
    exact ⟨by simpa using htype, before, after, hconditions, by simpa using hbefore⟩

theorem ready?_eq_none_iff : n.ready? = none ↔ ∀ c ∈ n.conditions, c.type ≠ "Ready" := by
  simp [ready?, conditionOf?, List.find?_eq_none]

theorem FirstReady.mem (first : n.FirstReady c) : c ∈ n.conditions := by
  obtain ⟨before, after, hconditions, -⟩ := first
  rw [hconditions]
  exact List.mem_append_right _ List.mem_cons_self

/-- Only one condition counts. -/
theorem FirstReady.unique {c' : Condition} (first : n.FirstReady c) (first' : n.FirstReady c') :
    c = c' :=
  Option.some.inj ((ready?_eq_some_iff.mpr first).symm.trans (ready?_eq_some_iff.mpr first'))

/-- The times of a node are not leap seconds. -/
def Regular (n : Node) : Prop :=
  ∀ c ∈ n.conditions, ∀ s, c.lastTransition = some s → s.inLeapSecond = false

/-! ### The rule -/

/-- A node is judged by the first condition of type Ready.  Where this says neither that the node is
ready nor that it is not, it is judged by the time since the last transition. -/
inductive Assessed (n : Node) (now : Instant) (window : Duration) : NodeHealth → Prop where
  | unknown (none : ∀ c ∈ n.conditions, c.type ≠ "Ready") : Assessed n now window .unknown
  | healthy {c : Condition} (first : n.FirstReady c) (tells : c.status = "True") :
      Assessed n now window (.healthy c.lastTransition)
  | notReady {c : Condition} (first : n.FirstReady c) (tells : c.status = "False") :
      Assessed n now window .notReady
  | failed {c : Condition} {s : Instant} (first : n.FirstReady c)
      (tells : c.status ≠ "True" ∧ c.status ≠ "False") (since : c.lastTransition = some s)
      (late : (window.nanos : Int) < now.total - s.total) : Assessed n now window (.failed s)
  | suspect {c : Condition} {s : Instant} {remaining : Duration} (first : n.FirstReady c)
      (tells : c.status ≠ "True" ∧ c.status ≠ "False") (since : c.lastTransition = some s)
      (early : ¬ (window.nanos : Int) < now.total - s.total)
      (left : (remaining.nanos : Int) = window.nanos - max 0 (now.total - s.total)) :
      Assessed n now window (.suspect remaining)
  /-- Without a last transition all of the window is left at any time. -/
  | undated {c : Condition} (first : n.FirstReady c)
      (tells : c.status ≠ "True" ∧ c.status ≠ "False") (since : c.lastTransition = none) :
      Assessed n now window (.suspect window)

/-- The health of a node whose condition says nothing. -/
theorem health_of_silent (first : n.FirstReady c)
    (tells : c.status ≠ "True" ∧ c.status ≠ "False") (now : Instant) (window : Duration) :
    n.health now window =
      if window < now.since (c.lastTransition.getD now) then
        .failed (c.lastTransition.getD now)
      else .suspect (window - now.since (c.lastTransition.getD now)) := by
  simp only [health, ready?_eq_some_iff.mpr first, if_neg tells.1, if_neg tells.2]

/-- The window is over exactly if the time since an instant is more than it. -/
theorem lt_since_iff (hs : s.inLeapSecond = false) (hnow : now.inLeapSecond = false) :
    window < now.since s ↔ (window.nanos : Int) < now.total - s.total := by
  rw [Duration.lt_iff, Instant.nanos_since hs hnow]
  omega

/-- What is left of the window. -/
theorem nanos_left (hs : s.inLeapSecond = false) (hnow : now.inLeapSecond = false)
    (early : ¬ (window.nanos : Int) < now.total - s.total) :
    ((window - now.since s).nanos : Int) = window.nanos - max 0 (now.total - s.total) := by
  rw [Duration.nanos_sub, Instant.nanos_since hs hnow]
  omega

theorem Assessed.health_eq (hn : n.Regular) (hnow : now.inLeapSecond = false)
    (assessed : n.Assessed now window h) : n.health now window = h := by
  cases assessed with
  | unknown none => simp only [health, ready?_eq_none_iff.mpr none]
  | healthy first tells => simp only [health, ready?_eq_some_iff.mpr first, if_pos tells]
  | notReady first tells =>
      have hfalse : ¬ "False" = "True" := by decide
      simp only [health, ready?_eq_some_iff.mpr first, tells, if_neg hfalse, if_true]
  | @failed c s first tells since late =>
      have hs := hn c first.mem s since
      rw [health_of_silent first tells, since, Option.getD_some,
        if_pos ((lt_since_iff hs hnow).mpr late)]
  | @suspect c s remaining first tells since early left =>
      have hs := hn c first.mem s since
      rw [health_of_silent first tells, since, Option.getD_some,
        if_neg (mt (lt_since_iff hs hnow).mp early)]
      have same : window - now.since s = remaining :=
        Duration.ext (Int.ofNat.inj ((nanos_left hs hnow early).trans left.symm))
      rw [same]
  | undated first tells since =>
      rw [health_of_silent first tells, since, Option.getD_none, Instant.since_self]
      exact if_neg (Nat.not_lt_zero _)

/-- Something is always said of a node. -/
theorem exists_assessed (hn : n.Regular) (hnow : now.inLeapSecond = false) (window : Duration) :
    ∃ h, n.Assessed now window h := by
  cases hready : n.ready? with
  | none => exact ⟨_, .unknown (ready?_eq_none_iff.mp hready)⟩
  | some c =>
      have first := ready?_eq_some_iff.mp hready
      by_cases htrue : c.status = "True"
      · exact ⟨_, .healthy first htrue⟩
      by_cases hfalse : c.status = "False"
      · exact ⟨_, .notReady first hfalse⟩
      cases since : c.lastTransition with
      | none => exact ⟨_, .undated first ⟨htrue, hfalse⟩ since⟩
      | some s =>
          have hs := hn c first.mem s since
          by_cases late : (window.nanos : Int) < now.total - s.total
          · exact ⟨_, .failed first ⟨htrue, hfalse⟩ since late⟩
          · exact ⟨_, .suspect first ⟨htrue, hfalse⟩ since late (nanos_left hs hnow late)⟩

/-- **The health of a node is what the rule says.** -/
theorem health_eq_iff (hn : n.Regular) (hnow : now.inLeapSecond = false) :
    n.health now window = h ↔ n.Assessed now window h := by
  refine ⟨?_, Assessed.health_eq hn hnow⟩
  rintro rfl
  obtain ⟨h, assessed⟩ := exists_assessed hn hnow window
  exact (assessed.health_eq hn hnow).symm ▸ assessed

/-! ### The passing of time -/

/-- A node that has failed has failed at every later time. -/
theorem Assessed.stays_failed (hnow : now.inLeapSecond = false)
    (hlater : later.inLeapSecond = false) (hle : now ≤ later)
    (assessed : n.Assessed now window (.failed s)) : n.Assessed later window (.failed s) := by
  cases assessed with
  | failed first tells since late =>
      have totals := (Instant.le_iff_total hnow hlater).mp hle
      exact .failed first tells since (by omega)

/-- When all that is left is over, there is just nothing left. -/
theorem Assessed.runs_out (hnow : now.inLeapSecond = false) (hn : n.Regular)
    (first : n.FirstReady c) (since : c.lastTransition = some s) (hle : s ≤ now)
    (assessed : n.Assessed now window (.suspect remaining)) :
    n.Assessed (now.after remaining) window (.suspect {}) ∧
      ∀ later, later.inLeapSecond = false → now.after remaining < later →
        n.Assessed later window (.failed s) := by
  have totals := (Instant.le_iff_total (hn c first.mem s since) hnow).mp hle
  have totalAfter := now.total_after remaining
  cases assessed with
  | suspect first' tells since' early left =>
      obtain rfl := first.unique first'
      obtain rfl := Option.some.inj (since.symm.trans since')
      refine ⟨.suspect first tells since (by omega) ?_, fun later hlater hlt => ?_⟩
      · show (0 : Int) = _
        omega
      · have behind :=
          (Instant.lt_iff_total (now.inLeapSecond_after remaining) hlater).mp hlt
        exact .failed first tells since (by omega)
  | undated first' tells since' =>
      obtain rfl := first.unique first'
      exact absurd (since.symm.trans since') (by simp)

/-- Without a last transition there is no failure. -/
theorem Assessed.not_failed (first : n.FirstReady c) (since : c.lastTransition = none) :
    ¬ n.Assessed now window (.failed s) := by
  intro assessed
  cases assessed with
  | failed first' tells since' =>
      obtain rfl := first.unique first'
      exact absurd (since.symm.trans since') (by simp)

/-- **The health of a node is exact in time**, for all nodes, times and windows, as long as no time
is a leap second.  It is what the rule says.  A node that has failed has failed at every later time.
A suspect whose last transition is over is still suspect when all that was left is over, and has
failed at every instant behind that.  Without a last transition it has never failed. -/
theorem health_exact (hn : n.Regular) (hnow : now.inLeapSecond = false) (window : Duration) :
    (∀ h, n.health now window = h ↔ n.Assessed now window h) ∧
      (∀ s later, n.health now window = .failed s → later.inLeapSecond = false → now ≤ later →
        n.health later window = .failed s) ∧
      (∀ c s remaining, n.FirstReady c → c.lastTransition = some s → s ≤ now →
        n.health now window = .suspect remaining →
          n.health (now.after remaining) window = .suspect {} ∧
            ∀ later, later.inLeapSecond = false → now.after remaining < later →
              n.health later window = .failed s) ∧
      ∀ c, n.FirstReady c → c.lastTransition = none → ∀ s, n.health now window ≠ .failed s := by
  refine ⟨fun h => health_eq_iff hn hnow, fun s later hfailed hlater hle => ?_,
    fun c s remaining first since hle hsuspect => ?_, fun c first since s hfailed => ?_⟩
  · have assessed := (health_eq_iff hn hnow).mp hfailed
    exact (assessed.stays_failed hnow hlater hle).health_eq hn hlater
  · have assessed := (health_eq_iff hn hnow).mp hsuspect
    obtain ⟨still, behind⟩ := assessed.runs_out hnow hn first since hle
    refine ⟨still.health_eq hn (now.inLeapSecond_after remaining), fun later hlater hlt => ?_⟩
    exact (behind later hlater hlt).health_eq hn hlater
  · exact Assessed.not_failed first since ((health_eq_iff hn hnow).mp hfailed)

/-- A node that has not been heard of since some time, as the first of two conditions of type Ready
says. -/
def silent : Node where
  conditions := [
    { type := "DiskPressure", status := "False" },
    { type := "Ready", status := "Unknown", lastTransition := some ⟨1000, 500000000⟩ },
    { type := "Ready", status := "True" }]

/-- Half a second before the end of its window it is still suspect, and so it is at the end.  One
nanosecond behind that it has failed, and also a day later. -/
theorem health_exact_silent :
    silent.Regular ∧ Instant.inLeapSecond ⟨1040, 0⟩ = false ∧
      silent.health ⟨1040, 0⟩ (.ofSeconds 40) = .suspect ⟨500000000⟩ ∧
      silent.health ⟨1040, 500000000⟩ (.ofSeconds 40) = .suspect {} ∧
      silent.health ⟨1040, 500000001⟩ (.ofSeconds 40) = .failed ⟨1000, 500000000⟩ ∧
      silent.health ⟨87440, 0⟩ (.ofSeconds 40) = .failed ⟨1000, 500000000⟩ := by
  have regular : silent.Regular := by
    simp [Regular, silent, Instant.inLeapSecond, Duration.second]
  have first : silent.FirstReady
      { type := "Ready", status := "Unknown", lastTransition := some ⟨1000, 500000000⟩ } :=
    ready?_eq_some_iff.mp rfl
  have suspect : silent.health ⟨1040, 0⟩ (.ofSeconds 40) = .suspect ⟨500000000⟩ := by decide
  have hnow : Instant.inLeapSecond ⟨1040, 0⟩ = false := rfl
  have hbehind : Instant.inLeapSecond ⟨1040, 500000001⟩ = false := rfl
  obtain ⟨-, -, runsOut, -⟩ := health_exact regular hnow (.ofSeconds 40)
  obtain ⟨still, behind⟩ := runsOut _ _ _ first rfl (by decide) suspect
  have failed := behind _ hbehind (by decide)
  obtain ⟨-, stays, -⟩ := health_exact regular hbehind (.ofSeconds 40)
  exact ⟨regular, hnow, suspect, still, failed, stays _ ⟨87440, 0⟩ failed rfl (by decide)⟩

end Node

end NodeFencing
