import Mathlib.Data.List.Basic
import NodeFencing.Method.Job

/-!
# How long the job of a method may take

The mechanisms of a method run side by side, and the whole job is repeated if one of them
fails.  So the job has the longest time limit of its mechanisms for each attempt, and no
limit if no mechanism has one.  Retries and time limits are read as integers of 32 bits; the
deadline is computed in 64 bits, and there is room for the largest of them.

## Main Definitions

* `Method.LongestLimit` — the longest time limit of the mechanisms of a method
* `Method.DeadlineFits` — numbers from which the deadline is computed in 64 bits

## Main statements

* `Method.timeoutSeconds?_eq_some_iff` — the longest limit, without its computation
* `Method.deadlineFits` — no step of the computation leaves its range
* `Method.buildJob_deadline` — the deadline of the job covers every mechanism
-/

namespace NodeFencing

namespace Method

variable {m : Method} {longest : Nat}

/-! ### The longest limit -/

/-- The longest time limit of the mechanisms of a method. -/
structure LongestLimit (m : Method) (longest : Nat) : Prop where
  declared : ∃ mechanism ∈ m.mechanisms, mechanism.timeoutSeconds = some longest
  greatest : ∀ mechanism ∈ m.mechanisms, ∀ limit, mechanism.timeoutSeconds = some limit →
    limit ≤ longest

theorem timeoutSeconds?_eq_some_iff :
    m.timeoutSeconds? = some longest ↔ m.LongestLimit longest := by
  rw [timeoutSeconds?, List.max?_eq_some_iff]
  simp only [List.mem_filterMap]
  constructor
  · rintro ⟨declared, greatest⟩
    exact ⟨declared, fun mechanism hm limit hlimit => greatest limit ⟨mechanism, hm, hlimit⟩⟩
  · rintro ⟨declared, greatest⟩
    exact ⟨declared, fun limit ⟨mechanism, hm, hlimit⟩ => greatest mechanism hm limit hlimit⟩

theorem timeoutSeconds?_eq_none_iff :
    m.timeoutSeconds? = none ↔ ∀ mechanism ∈ m.mechanisms, mechanism.timeoutSeconds = none := by
  simp [timeoutSeconds?, List.max?_eq_none_iff, List.filterMap_eq_nil_iff]

/-! ### The deadline -/

theorem deadlineSeconds?_eq :
    m.deadlineSeconds? = m.timeoutSeconds?.map fun limit : Nat => limit * (m.retries + 1) := by
  rw [deadlineSeconds?]
  cases m.timeoutSeconds? <;> rfl

/-- The numbers from which a deadline is computed, and those in between, have a place in 64 bits. -/
structure DeadlineFits (m : Method) (longest : Nat) : Prop where
  limit : fitsSigned 64 longest = true
  retries : fitsSigned 64 m.retries = true
  attempts : fitsSigned 64 (m.retries + 1) = true
  deadline : fitsSigned 64 ((m.retries + 1) * longest) = true

/-- **No step leaves its range**: the largest deadline is `2 ^ 31 * (2 ^ 32 - 1)` seconds. -/
theorem deadlineFits (hretries : 0 ≤ m.retries) (hwidth : fitsSigned 32 m.retries = true)
    (hlongest : fitsUnsigned 32 longest = true) : m.DeadlineFits longest := by
  have hlimit : longest ≤ 4294967295 := fitsUnsigned_natCast_iff.mp hlongest
  have hmost : m.retries ≤ 2147483647 := (fitsSigned_iff.mp hwidth).2
  have least : leastSigned 64 = -9223372036854775808 := by decide
  have greatest : greatestSigned 64 = 9223372036854775807 := by decide
  have hproduct : (m.retries + 1) * longest ≤ 2147483648 * 4294967295 :=
    Int.mul_le_mul (by omega) (by omega) (by omega) (by omega)
  have hnonneg : 0 ≤ (m.retries + 1) * longest := Int.mul_nonneg (by omega) (by omega)
  constructor <;> rw [fitsSigned_iff, least, greatest] <;> omega

/-- A job has the deadline of its method. -/
theorem deadline_of_buildJob {c : Config} {r : Request} {settings : BuildSettings} {job : Job}
    (h : m.buildJob c r settings = .ok job) :
    ∃ spec, job.spec = some spec ∧ spec.activeDeadlineSeconds = m.deadlineSeconds? := by
  unfold buildJob at h
  cases hparts : m.parts r settings with
  | error e => simp [hparts, bind, Except.bind] at h
  | ok parts =>
      simp only [hparts, bind, Except.bind, pure, Except.pure, Except.ok.injEq] at h
      subst h
      exact ⟨_, rfl, rfl⟩

/-- **The deadline covers every mechanism.**  The job of a method has no deadline if and only if no
mechanism has a time limit.  Otherwise the deadline is the longest limit, once for each attempt; it
is computed in 64 bits without leaving their range, and has room for each limit in each attempt. -/
theorem buildJob_deadline (hretries : 0 ≤ m.retries) (hwidth : fitsSigned 32 m.retries = true)
    (hlimits : ∀ mechanism ∈ m.mechanisms, ∀ limit, mechanism.timeoutSeconds = some limit →
      fitsUnsigned 32 limit = true) :
    (∀ c r settings job, m.buildJob c r settings = .ok job →
      ∃ spec, job.spec = some spec ∧ spec.activeDeadlineSeconds = m.deadlineSeconds?) ∧
    (m.deadlineSeconds? = none ↔
      ∀ mechanism ∈ m.mechanisms, mechanism.timeoutSeconds = none) ∧
    ∀ deadline, m.deadlineSeconds? = some deadline → ∃ longest, m.LongestLimit longest ∧
      deadline = (m.retries + 1) * longest ∧ m.DeadlineFits longest ∧
      ∀ mechanism ∈ m.mechanisms, ∀ limit, mechanism.timeoutSeconds = some limit →
        (m.retries + 1) * limit ≤ deadline := by
  refine ⟨fun c r settings job => deadline_of_buildJob, ?_, fun deadline hdeadline => ?_⟩
  · rw [deadlineSeconds?_eq, Option.map_eq_none_iff, timeoutSeconds?_eq_none_iff]
  · rw [deadlineSeconds?_eq] at hdeadline
    obtain ⟨longest, hlongest, rfl⟩ := Option.map_eq_some_iff.mp hdeadline
    have greatest := timeoutSeconds?_eq_some_iff.mp hlongest
    obtain ⟨mechanism, hmechanism, hdeclared⟩ := greatest.declared
    have fits := deadlineFits hretries hwidth (hlimits mechanism hmechanism longest hdeclared)
    refine ⟨longest, greatest, Int.mul_comm _ _, fits, fun other hother limit hlimit => ?_⟩
    have hle : (limit : Int) ≤ longest :=
      Int.ofNat_le.mpr (greatest.greatest other hother limit hlimit)
    rw [Int.mul_comm (longest : Int)]
    exact Int.mul_le_mul_of_nonneg_left hle (by omega)

/-- A method with the greatest number of retries, and with the longest time limit. -/
def longRunning : Method where
  name := "power"
  retries := 2147483647
  mechanisms := [{ timeoutSeconds := some 30 }, {}, { timeoutSeconds := some 4294967295 }]

/-- The longest deadline of all is just short of the greatest integer of 64 bits. -/
theorem buildJob_deadline_longest :
    (0 ≤ longRunning.retries ∧ fitsSigned 32 longRunning.retries = true ∧
      ∀ mechanism ∈ longRunning.mechanisms, ∀ limit, mechanism.timeoutSeconds = some limit →
        fitsUnsigned 32 limit = true) ∧
    longRunning.deadlineSeconds? = some 9223372034707292160 ∧
      fitsSigned 64 9223372034707292160 = true ∧
      (longRunning.retries + 1) * 30 ≤ 9223372034707292160 := by
  have limits : ∀ mechanism ∈ longRunning.mechanisms, ∀ limit,
      mechanism.timeoutSeconds = some limit → fitsUnsigned 32 limit = true := by
    simp [longRunning, fitsUnsigned_natCast_iff, greatestUnsigned, valuesOf]
  have deadline : longRunning.deadlineSeconds? = some 9223372034707292160 := by decide
  obtain ⟨-, -, covers⟩ := buildJob_deadline (m := longRunning) (by decide) (by decide) limits
  obtain ⟨longest, -, heq, fits, covered⟩ := covers _ deadline
  exact ⟨⟨by decide, by decide, limits⟩, deadline, heq ▸ fits.deadline,
    covered { timeoutSeconds := some 30 } (by decide) 30 rfl⟩

end Method

end NodeFencing
