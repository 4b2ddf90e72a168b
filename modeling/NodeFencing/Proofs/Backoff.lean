import Mathlib.Data.List.Basic
import NodeFencing.Backoff
import NodeFencing.Monitor.Remote
import NodeFencing.Proofs.Program.Trial

/-!
# How an operation is tried again

An operation is tried until it succeeds, or until its attempts are used up.  Given what each
trial would come to, this tells all that is done: the trials up to the first success, or as
many as there may be, with one pause between each two of them, and nothing behind the last
one.

## Main Definitions

* `triesWithin` — how many trials are made of a sequence, if their number is limited
* `courseOf` — trials with pauses between them
* `Backoff.failedCalls` — calls that have failed, with the pauses behind them

## Main statements

* `Program.retryFrom_performs_iff` — what is done from some attempt on
* `Backoff.retries_exactly` — what is done altogether
* `Program.retry_ask_performs_iff` — what is done where each trial is one call
-/

namespace NodeFencing

variable {I : Interface} {ε α : Type} {op : Program I (Except ε α)}

/-! ### Trials in a row -/

/-- One trial, and then others. -/
def trialsFrom (first : op.Trial) (others : ℕ → op.Trial) : ℕ → op.Trial
  | 0 => first
  | i + 1 => others i

/-- How many trials are made of a sequence: up to the first success if it comes within a limit, and
otherwise as many as the limit says. -/
def triesWithin (limit : ℕ) (trials : ℕ → op.Trial) : ℕ :=
  ((List.range limit).find? fun i => (trials i).result.isOk).elim limit (· + 1)

/-- A number of trials in a row, with pauses between them. -/
def courseOf (pauses : ℕ → Duration) (trials : ℕ → op.Trial) (count : ℕ) : List (Act I) :=
  (trials 0).acts ++
    (List.range (count - 1)).flatMap fun i => .pause (pauses i) :: (trials (i + 1)).acts

section Trials

variable {trials : ℕ → op.Trial} {pauses : ℕ → Duration} {limit : ℕ}

theorem triesWithin_pos (trials : ℕ → op.Trial) (h : 0 < limit) : 0 < triesWithin limit trials := by
  unfold triesWithin
  cases List.find? _ (List.range limit) with
  | none => exact h
  | some i => exact Nat.succ_pos i

theorem triesWithin_le : triesWithin limit trials ≤ limit := by
  unfold triesWithin
  cases hfind : List.find? _ (List.range limit) with
  | none => exact Nat.le_refl _
  | some i => exact List.mem_range.mp (List.mem_of_find?_eq_some hfind)

/-- A single trial is made in any case. -/
@[simp] theorem triesWithin_one : triesWithin 1 trials = 1 :=
  Nat.le_antisymm triesWithin_le (triesWithin_pos trials Nat.one_pos)

/-- A first trial that succeeds is the only one. -/
theorem triesWithin_of_ok {a : α} (h : (trials 0).result = .ok a) :
    triesWithin (limit + 1) trials = 1 := by
  have ok : (trials 0).result.isOk = true := by rw [h]; rfl
  simp only [triesWithin, List.range_succ_eq_map, List.find?_cons, ok, Option.elim_some]

/-- Behind a first trial that fails the others count as they would without it. -/
theorem triesWithin_of_error {e : ε} (h : (trials 0).result = .error e) :
    triesWithin (limit + 1) trials = triesWithin limit (fun i => trials (i + 1)) + 1 := by
  have failed : (trials 0).result.isOk = false := by rw [h]; rfl
  simp only [triesWithin, List.range_succ_eq_map, List.find?_cons, failed, List.find?_map,
    Function.comp_def, Nat.succ_eq_add_one]
  cases List.find? (fun i => (trials (i + 1)).result.isOk) (List.range limit) <;> rfl

@[simp] theorem courseOf_one : courseOf pauses trials 1 = (trials 0).acts := by
  simp [courseOf]

/-- Behind a first trial that fails comes a pause, and then the others. -/
theorem courseOf_of_error {e : ε} (h : (trials 0).result = .error e) (hlimit : 0 < limit) :
    courseOf pauses trials (triesWithin (limit + 1) trials) =
      (trials 0).acts ++ .pause (pauses 0) :: courseOf (fun i => pauses (i + 1))
        (fun i => trials (i + 1)) (triesWithin limit fun i => trials (i + 1)) := by
  have pos := triesWithin_pos (fun i => trials (i + 1)) hlimit
  obtain ⟨more, hmore⟩ := Nat.exists_eq_succ_of_ne_zero (Nat.ne_of_gt pos)
  rw [triesWithin_of_error h, hmore]
  simp [courseOf, List.range_succ_eq_map, List.flatMap_map]

/-- Behind a first trial that fails the last one is the last of the others. -/
theorem last_of_error {e : ε} (h : (trials 0).result = .error e) (hlimit : 0 < limit) :
    trials (triesWithin (limit + 1) trials - 1) =
      trials (triesWithin limit (fun i => trials (i + 1)) - 1 + 1) := by
  have pos := triesWithin_pos (fun i => trials (i + 1)) hlimit
  rw [triesWithin_of_error h, Nat.add_sub_cancel, Nat.sub_add_cancel pos]

end Trials

/-! ### Trying again -/

/-- **What is done from some attempt on**, by induction on the attempts that are left. -/
theorem Program.retryFrom_performs_iff {b : Backoff} {attempt more : ℕ} {acts : List (Act I)}
    {result : Except ε α} : (retryFrom b op attempt more).Performs acts result ↔
      ∃ trials : ℕ → op.Trial,
        acts = courseOf (fun i => b.delay (attempt + i)) trials (triesWithin (more + 1) trials) ∧
          result = (trials (triesWithin (more + 1) trials - 1)).result := by
  induction more generalizing attempt acts with
  | zero =>
      constructor
      · intro h
        exact ⟨fun _ => ⟨acts, result, h⟩, by simp, rfl⟩
      · rintro ⟨trials, rfl, rfl⟩
        simpa [retryFrom] using (trials 0).performs
  | succ more ih =>
      have later (i : ℕ) : b.delay (attempt + (i + 1)) = b.delay (attempt + 1 + i) := by
        rw [Nat.add_assoc, Nat.add_comm 1]
      rw [retryFrom, performs_bind_iff]
      constructor
      · rintro ⟨before, r, behind, rfl, hfirst, hrest⟩
        cases r with
        | ok a =>
            obtain ⟨rfl, rfl⟩ := performs_done_iff.mp hrest
            refine ⟨fun _ => ⟨before, _, hfirst⟩, ?_, rfl⟩
            rw [triesWithin_of_ok rfl, courseOf_one, List.append_nil]
        | error e =>
            obtain ⟨rest, rfl, hagain⟩ := performs_pause_iff.mp hrest
            obtain ⟨others, rfl, rfl⟩ := ih.mp hagain
            let trials := trialsFrom ⟨before, .error e, hfirst⟩ others
            have failed : (trials 0).result = .error e := rfl
            refine ⟨trials, ?_, ?_⟩
            · rw [courseOf_of_error failed more.succ_pos]
              simp only [later]
              rfl
            · rw [last_of_error failed more.succ_pos]
              rfl
      · rintro ⟨trials, rfl, rfl⟩
        cases hr : (trials 0).result with
        | ok a =>
            refine ⟨(trials 0).acts, .ok a, [], ?_, hr ▸ (trials 0).performs, ?_⟩
            · rw [triesWithin_of_ok hr, courseOf_one, List.append_nil]
            · rw [triesWithin_of_ok hr, hr]
              exact .done
        | error e =>
            refine ⟨(trials 0).acts, .error e, _, ?_, hr ▸ (trials 0).performs,
              .pause (ih.mpr ⟨fun i => trials (i + 1), rfl, ?_⟩)⟩
            · rw [courseOf_of_error hr more.succ_pos]
              simp only [later]
              rfl
            · rw [last_of_error hr more.succ_pos]

namespace Backoff

theorem attempts_pos (b : Backoff) : 0 < b.attempts :=
  Nat.le_max_right _ _

/-- **What is done altogether.**  Given what each trial would come to, the trials are made up to the
first success, or as many as there are steps, but one at least; between two of them there is the
pause that belongs to the first of the two; and the result is that of the last one.  Nothing else
can happen.  The trials are counted from one, and if the number of steps has a place in 32 bits then
so has the count. -/
theorem retries_exactly (b : Backoff) (hsteps : b.steps ≤ greatestUnsigned 32)
    (op : Program I (Except ε α)) :
    (∀ acts result, (Program.retry b op).Performs acts result ↔ ∃ trials : ℕ → op.Trial,
      acts = courseOf (fun i => b.delay (i + 1)) trials (triesWithin (max b.steps 1) trials) ∧
        result = (trials (triesWithin (max b.steps 1) trials - 1)).result) ∧
    ∀ trials : ℕ → op.Trial, 1 ≤ triesWithin (max b.steps 1) trials ∧
      triesWithin (max b.steps 1) trials ≤ max b.steps 1 ∧
        triesWithin (max b.steps 1) trials ≤ greatestUnsigned 32 := by
  constructor
  · intro acts result
    rw [Program.retry, Program.retryFrom_performs_iff]
    simp only [Nat.sub_add_cancel b.attempts_pos, Nat.add_comm 1]
    rfl
  · intro trials
    have most : triesWithin (max b.steps 1) trials ≤ max b.steps 1 := triesWithin_le
    have wide : max b.steps 1 ≤ greatestUnsigned 32 := Nat.max_le.mpr ⟨hsteps, by decide⟩
    exact ⟨triesWithin_pos _ b.attempts_pos, most, Nat.le_trans most wide⟩

/-- A request is to be withdrawn, and the cluster is out of order at the first two calls. -/
def withdrawals (name : String) : ℕ → (MonitorStore.deleteRequest name).Trial
  | 0 | 1 => ⟨_, .error (.api (.refused 503)), Program.performs_ask _⟩
  | _ => ⟨_, .ok (), Program.performs_ask _⟩

/-- Of five attempts, three are made. -/
theorem retries_exactly_third :
    let b : Backoff := {}
    let withdraw := MonitorCall.deleteRequest "fence-node-1"
    let refused : Except TaskError Unit := .error (.api (.refused 503))
    b.steps ≤ greatestUnsigned 32 ∧
      (Program.retry b (MonitorStore.deleteRequest "fence-node-1")).Performs
        [.call withdraw refused, .pause (b.delay 1), .call withdraw refused, .pause (b.delay 2),
          .call withdraw (.ok ())] (.ok ()) := by
  have few : ({} : Backoff).steps ≤ greatestUnsigned 32 := by decide
  refine ⟨few, ?_⟩
  have all := (retries_exactly {} few (MonitorStore.deleteRequest "fence-node-1")).1
  exact (all _ _).mpr ⟨withdrawals "fence-node-1", rfl, rfl⟩

end Backoff

/-! ### One call -/

/-- A call that has failed some times, with the pause behind each of them; the attempts are counted
from a number on. -/
def Backoff.failedCalls (b : Backoff) (c : I.Call) : ℕ → List (I.Answer c) → List (Act I)
  | _, [] => []
  | attempt, answer :: rest =>
    .call c answer :: .pause (b.delay attempt) :: failedCalls b c (attempt + 1) rest

namespace Program

variable {b : Backoff} {c : I.Call} {f : I.Answer c → Except ε α} {acts : List (Act I)}
  {result : Except ε α}

theorem ask_map_performs_iff : ((ask c).bind fun answer => done (f answer)).Performs acts result ↔
    ∃ answer, acts = [.call c answer] ∧ result = f answer := by
  rw [performs_bind_iff]
  constructor
  · rintro ⟨before, answer, behind, rfl, hask, hdone⟩
    obtain rfl := performs_ask_iff.mp hask
    obtain ⟨rfl, rfl⟩ := performs_done_iff.mp hdone
    exact ⟨answer, rfl, rfl⟩
  · rintro ⟨answer, rfl, rfl⟩
    exact ⟨_, answer, [], rfl, performs_ask answer, .done⟩

/-- **What is done where each trial is one call**, by induction on the attempts that are left: the
call is made until an answer is a success, or until the attempts are used up. -/
theorem retryFrom_ask_performs_iff {attempt more : ℕ} :
    (retryFrom b ((ask c).bind fun answer => done (f answer)) attempt more).Performs acts result ↔
      ∃ failures last, acts = b.failedCalls c attempt failures ++ [.call c last] ∧
        (∀ answer ∈ failures, (f answer).isOk = false) ∧ failures.length ≤ more ∧
        ((f last).isOk = true ∨ failures.length = more) ∧ result = f last := by
  induction more generalizing attempt acts with
  | zero =>
      rw [retryFrom, ask_map_performs_iff]
      constructor
      · rintro ⟨last, rfl, rfl⟩
        exact ⟨[], last, rfl, nofun, Nat.le_refl _, .inr rfl, rfl⟩
      · rintro ⟨failures, last, rfl, -, hlength, -, rfl⟩
        obtain rfl := List.length_eq_zero_iff.mp (Nat.le_zero.mp hlength)
        exact ⟨last, rfl, rfl⟩
  | succ more ih =>
      rw [retryFrom, performs_bind_iff]
      constructor
      · rintro ⟨before, r, behind, rfl, hfirst, hrest⟩
        obtain ⟨answer, rfl, rfl⟩ := ask_map_performs_iff.mp hfirst
        cases hr : f answer with
        | ok a =>
            rw [hr] at hrest
            obtain ⟨rfl, rfl⟩ := performs_done_iff.mp hrest
            exact ⟨[], answer, rfl, nofun, Nat.zero_le _, .inl (by rw [hr]; rfl), hr.symm⟩
        | error e =>
            rw [hr] at hrest
            obtain ⟨rest, rfl, hagain⟩ := performs_pause_iff.mp hrest
            obtain ⟨failures, last, rfl, hfailures, hlength, hlast, rfl⟩ := ih.mp hagain
            refine ⟨answer :: failures, last, rfl, ?_, Nat.succ_le_succ hlength,
              hlast.imp_right (congrArg Nat.succ), rfl⟩
            exact List.forall_mem_cons.mpr ⟨by rw [hr]; rfl, hfailures⟩
      · rintro ⟨failures, last, rfl, hfailures, hlength, hlast, rfl⟩
        cases failures with
        | nil =>
            -- There are attempts left, so this one was the last because it was a success.
            have success : (f last).isOk = true := hlast.resolve_right (Nat.succ_ne_zero more).symm
            refine ⟨_, f last, [], rfl, ask_map_performs_iff.mpr ⟨last, rfl, rfl⟩, ?_⟩
            cases hr : f last with
            | ok a => exact .done
            | error e => rw [hr] at success; cases success
        | cons answer failures =>
            obtain ⟨failed, hfailures⟩ := List.forall_mem_cons.mp hfailures
            refine ⟨[.call c answer], f answer, _, rfl, ask_map_performs_iff.mpr ⟨answer, rfl, rfl⟩,
              ?_⟩
            cases hr : f answer with
            | ok a => rw [hr] at failed; cases failed
            | error e =>
                exact .pause (ih.mpr ⟨failures, last, rfl, hfailures,
                  Nat.le_of_succ_le_succ hlength, hlast.imp_right Nat.succ.inj, rfl⟩)

/-- The same for all attempts that there are. -/
theorem retry_ask_performs_iff :
    (retry b ((ask c).bind fun answer => done (f answer))).Performs acts result ↔
      ∃ failures last, acts = b.failedCalls c 1 failures ++ [.call c last] ∧
        (∀ answer ∈ failures, (f answer).isOk = false) ∧ failures.length + 1 ≤ b.attempts ∧
        ((f last).isOk = true ∨ failures.length + 1 = b.attempts) ∧ result = f last := by
  obtain ⟨more, hmore⟩ := Nat.exists_eq_succ_of_ne_zero (Nat.ne_of_gt b.attempts_pos)
  rw [retry, retryFrom_ask_performs_iff, hmore]
  simp only [Nat.succ_eq_add_one, Nat.add_sub_cancel, Nat.add_le_add_iff_right,
    Nat.add_right_cancel_iff]

end Program

end NodeFencing
