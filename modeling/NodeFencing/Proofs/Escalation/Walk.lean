import Mathlib.Data.Nat.Find
import NodeFencing.Proofs.Escalation

/-!
# The walk through the methods

A request goes through the methods of its configuration by one decision after another.  Each
decision is made with the method that the decisions so far have put in use and with what is
seen of its jobs.

The method in use is known by its name alone, and its place is looked up again each time.
Where the names differ this does no harm: the walk puts the methods in use in their order,
none twice and none left out, until one of them ends it or there is none left.  To see jobs
that are still running changes nothing of it, however often it happens.

## Main Definitions

* `Decision.inUse` — the method in use after a decision, if others follow
* `Config.walk`, `Config.after` — the decisions of a walk, and the method in use after them
* `Config.EndsAt`, `Config.Course` — the method at a place ends the walk, and what the decisions
  should be

## Main statements

* `Config.nextStep_reached` — one decision of the walk
* `Config.walk_of_not_ends` — the walk goes on to a place if no method before it ends it
* `Config.walk_append` — a walk over more observations goes on with what is in use
* `Config.walks_forward` — the whole walk
-/

namespace NodeFencing

/-- What is seen of the jobs of the method in use, and how long the request has counted then. -/
abbrev Observation := JobState × Duration

/-- The method in use after a decision, or `none` if no other decision follows. -/
def Decision.inUse (active : Option String) : Decision → Option (Option String)
  | .dispatch _ m => some (some m.name)
  | .wait _ | .delay _ _ => some active
  | .complete _ | .exhausted _ => none

namespace Config

/-- The decisions that are made one after another, from a method in use on. -/
def walk (c : Config) (active : Option String) : List Observation → List Decision
  | [] => []
  | (state, elapsed) :: seen =>
      let decision := c.nextStep active state elapsed
      decision :: match decision.inUse active with
        | none => []
        | some active => c.walk active seen

/-- The method in use after the decisions of a walk, or `none` if it has ended. -/
def after (c : Config) (active : Option String) : List Observation → Option (Option String)
  | [] => some active
  | (state, elapsed) :: seen =>
      ((c.nextStep active state elapsed).inUse active).bind fun active => c.after active seen

/-- The method at a place ends the walk: its jobs are seen to have succeeded, and it stops on
success or is the last one. -/
def EndsAt (c : Config) (seen : List Observation) (i : Nat) : Prop :=
  ∃ m elapsed, c.methods[i]? = some m ∧ seen[i + 1]? = some (.succeeded, elapsed) ∧
    (m.stopOnSuccess = true ∨ i + 1 = c.methods.length)

/-- What the decisions should be: methods are put in use in their order, from the first one on, and
the first that ends the walk does so with success; if none does, it ends without, behind the last
one. -/
inductive Course (c : Config) (seen : List Observation) : List Decision → Prop where
  | succeeds {i : Nat} {m : Method} (method : c.methods[i]? = some m) (ends : c.EndsAt seen i)
      (first : ∀ j < i, ¬ c.EndsAt seen j) :
      Course c seen ((c.methods.take (i + 1)).mapIdx .dispatch ++ [.complete m.name])
  | fails (goesOn : ∀ i, ¬ c.EndsAt seen i) :
      Course c seen (c.methods.mapIdx .dispatch ++
        [.exhausted (c.methods.getLast?.map Method.name)])

/-- The method in use when the one at a place is next. -/
def reached (c : Config) : Nat → Option String
  | 0 => none
  | i + 1 => c.methods[i]?.map Method.name

variable {c : Config} {active : Option String} {state : JobState} {elapsed : Duration}
  {seen : List Observation} {i : Nat} {m : Method}

/-! ### One decision -/

/-- Success is the end for a method that stops on it and for the last one. -/
theorem nextStep_of_succeeded (found : active.bind c.method? = some (i, m))
    (ends : m.stopOnSuccess = true ∨ i + 1 = c.methods.length) :
    c.nextStep active .succeeded elapsed = .complete m.name := by
  unfold nextStep
  rw [found]
  refine if_pos ?_
  rcases ends with stops | last
  · simp [stops]
  · simp [last]

theorem bind_method?_reached (distinct : (c.methods.map Method.name).Nodup)
    (hm : c.methods[i]? = some m) : (c.reached (i + 1)).bind c.method? = some (i, m) := by
  simp [reached, hm, method?_of_nodup distinct hm]

/-- **One decision of the walk**: when the methods before it have been gone through and none of them
ends the walk, the method at a place is put in use. -/
theorem nextStep_reached (distinct : (c.methods.map Method.name).Nodup)
    (hm : c.methods[i]? = some m) (late : m.gate ≤ elapsed)
    (settled : state ≠ .running) (hseen : seen[i]? = some (state, elapsed))
    (goesOn : ∀ j < i, ¬ c.EndsAt seen j) :
    c.nextStep (c.reached i) state elapsed = .dispatch i m := by
  have hlate : ¬ elapsed < m.gate := Nat.not_lt.mpr late
  cases i with
  | zero => exact candidate_of_late hm hlate
  | succ j =>
      obtain ⟨hlt, -⟩ := List.getElem?_eq_some_iff.mp hm
      have hj : c.methods[j]? = some c.methods[j] :=
        List.getElem?_eq_getElem (Nat.lt_of_succ_lt hlt)
      have passes : state.passes c.methods[j] := by
        cases state with
        | running => exact absurd rfl settled
        | failed => exact .inl rfl
        | missing => exact .inr (.inl rfl)
        | succeeded =>
            refine .inr (.inr ⟨rfl, Bool.eq_false_iff.mpr fun stops => ?_⟩)
            exact goesOn j (Nat.lt_succ_self j) ⟨_, _, hj, hseen, .inl stops⟩
      rw [nextStep_of_passes (bind_method?_reached distinct hj) passes fun _ => hlt]
      exact candidate_of_late hm hlate

/-- Behind the last method the walk ends without success. -/
theorem nextStep_reached_length (distinct : (c.methods.map Method.name).Nodup)
    (settled : state ≠ .running) (hseen : seen[c.methods.length]? = some (state, elapsed))
    (goesOn : ∀ j < c.methods.length, ¬ c.EndsAt seen j) :
    c.nextStep (c.reached c.methods.length) state elapsed =
      .exhausted (c.reached c.methods.length) := by
  cases hn : c.methods.length with
  | zero => exact candidate_of_length_le (Nat.le_of_eq hn)
  | succ j =>
      have hj : c.methods[j]? = some c.methods[j] := List.getElem?_eq_getElem (by omega)
      rw [hn] at hseen
      have failed : state = .failed ∨ state = .missing := by
        cases state with
        | running => exact absurd rfl settled
        | failed => exact .inl rfl
        | missing => exact .inr rfl
        | succeeded => exact absurd ⟨_, _, hj, hseen, .inr hn.symm⟩ (goesOn j (by omega))
      have passes : state.passes c.methods[j] := failed.imp id .inl
      rw [nextStep_of_passes (bind_method?_reached distinct hj) passes]
      · exact candidate_of_length_le (Nat.le_of_eq hn)
      · rintro rfl
        rcases failed with h | h <;> cases h

/-! ### The way to a place -/

theorem walk_cons : c.walk active ((state, elapsed) :: seen) =
    c.nextStep active state elapsed ::
      match (c.nextStep active state elapsed).inUse active with
      | none => []
      | some active => c.walk active seen :=
  rfl

/-- **The walk goes on to a place** if no method before it ends it: the methods before it have been
put in use in their order. -/
theorem walk_of_not_ends (distinct : (c.methods.map Method.name).Nodup)
    (settled : ∀ o ∈ seen, o.1 ≠ .running) (late : ∀ o ∈ seen, ∀ m ∈ c.methods, m.gate ≤ o.2)
    (enough : c.methods.length < seen.length) (hi : i ≤ c.methods.length)
    (goesOn : ∀ j, j + 1 < i → ¬ c.EndsAt seen j) :
    c.walk none seen =
      (c.methods.take i).mapIdx .dispatch ++ c.walk (c.reached i) (seen.drop i) := by
  induction i with
  | zero => rfl
  | succ i ih =>
      have hlt : i < seen.length := by omega
      have hm : c.methods[i]? = some c.methods[i] := List.getElem?_eq_getElem hi
      have hseen : seen[i]? = some seen[i] := List.getElem?_eq_getElem hlt
      have hdispatch : c.nextStep (c.reached i) seen[i].1 seen[i].2 = .dispatch i c.methods[i] :=
        nextStep_reached distinct hm (late _ (List.getElem_mem hlt) _ (List.getElem_mem hi))
          (settled _ (List.getElem_mem hlt)) hseen fun j hj => goesOn j (Nat.succ_lt_succ hj)
      rw [ih (Nat.le_of_lt hi) fun j hj => goesOn j (Nat.lt_succ_of_lt hj),
        List.drop_eq_getElem_cons hlt, walk_cons, hdispatch, List.take_succ_eq_append_getElem hi,
        List.mapIdx_append, List.append_assoc, List.length_take_of_le (Nat.le_of_lt hi)]
      simp [Decision.inUse, reached, hm]

/-! ### Jobs that are still running -/

/-- Methods that are put in use belong to the configuration. -/
theorem exists_method?_of_inUse {name : String}
    (known : ∀ name, active = some name → ∃ found, c.method? name = some found)
    (h : (c.nextStep active state elapsed).inUse active = some (some name)) :
    ∃ found, c.method? name = some found := by
  cases hdecision : c.nextStep active state elapsed with
  | dispatch k m =>
      rw [hdecision] at h
      obtain rfl := Option.some.inj (Option.some.inj h)
      obtain ⟨k', m', found⟩ := exists_method? (nextStep_dispatch hdecision).1
      exact ⟨_, found⟩
  | wait =>
      rw [hdecision] at h
      exact known name (Option.some.inj h)
  | delay =>
      rw [hdecision] at h
      exact known name (Option.some.inj h)
  | complete => rw [hdecision] at h; cases h
  | exhausted => rw [hdecision] at h; cases h

theorem exists_method?_of_after {name : String}
    (known : ∀ name, active = some name → ∃ found, c.method? name = some found)
    (h : c.after active seen = some (some name)) : ∃ found, c.method? name = some found := by
  induction seen generalizing active with
  | nil => exact known name (Option.some.inj h)
  | cons o seen ih =>
      obtain ⟨active', hstep, h⟩ := Option.bind_eq_some_iff.mp h
      refine ih (fun name' hname => ?_) h
      subst hname
      exact exists_method?_of_inUse known hstep

/-- **A walk over more observations** goes on with the method that is in use. -/
theorem walk_append {active' : Option String} (h : c.after active seen = some active')
    (rest : List Observation) :
    c.walk active (seen ++ rest) = c.walk active seen ++ c.walk active' rest := by
  induction seen generalizing active with
  | nil =>
      obtain rfl := Option.some.inj h
      rfl
  | cons o seen ih =>
      obtain ⟨next, hstep, h⟩ := Option.bind_eq_some_iff.mp h
      rw [List.cons_append, walk_cons, walk_cons, hstep, List.cons_append]
      exact congrArg _ (ih h)

/-- Jobs that are still running are waited for, and the same method remains in use. -/
theorem walk_running {name : String} (known : ∃ found, c.method? name = some found) :
    c.walk (some name) ((.running, elapsed) :: seen) = .wait name :: c.walk (some name) seen := by
  obtain ⟨⟨i, m⟩, found⟩ := known
  have hwait : c.nextStep (some name) .running elapsed = .wait name := by
    simp [nextStep, found, (method?_some found).2]
  rw [walk_cons, hwait]
  rfl

/-! ### The whole walk -/

/-- A method that ends the walk does so with success. -/
theorem walk_of_endsAt (distinct : (c.methods.map Method.name).Nodup)
    (hm : c.methods[i]? = some m) (ends : c.EndsAt seen i) :
    c.walk (c.reached (i + 1)) (seen.drop (i + 1)) = [.complete m.name] := by
  obtain ⟨m', elapsed, hm', hseen, ends⟩ := ends
  obtain rfl := Option.some.inj (hm.symm.trans hm')
  obtain ⟨hlt, hget⟩ := List.getElem?_eq_some_iff.mp hseen
  rw [List.drop_eq_getElem_cons hlt, hget, walk_cons,
    nextStep_of_succeeded (bind_method?_reached distinct hm) ends]
  rfl

/-- If no method ends the walk, it ends behind the last one. -/
theorem walk_of_no_ends (distinct : (c.methods.map Method.name).Nodup)
    (settled : ∀ o ∈ seen, o.1 ≠ .running) (enough : c.methods.length < seen.length)
    (goesOn : ∀ i, ¬ c.EndsAt seen i) :
    c.walk (c.reached c.methods.length) (seen.drop c.methods.length) =
      [.exhausted (c.reached c.methods.length)] := by
  have hexhausted : c.nextStep (c.reached c.methods.length) seen[c.methods.length].1
      seen[c.methods.length].2 = .exhausted (c.reached c.methods.length) :=
    nextStep_reached_length distinct (settled _ (List.getElem_mem enough))
      (List.getElem?_eq_getElem enough) fun j _ => goesOn j
  rw [List.drop_eq_getElem_cons enough, walk_cons, hexhausted]
  rfl

theorem reached_length (c : Config) :
    c.reached c.methods.length = c.methods.getLast?.map Method.name := by
  rw [List.getLast?_eq_getElem?]
  cases hn : c.methods.length with
  | zero => simp [reached, List.length_eq_zero_iff.mp hn]
  | succ n => rfl

/-- There is at most one decision more than there are methods. -/
theorem Course.length_le {decisions : List Decision} (h : c.Course seen decisions) :
    decisions.length ≤ c.methods.length + 1 := by
  cases h with
  | succeeds hm =>
      obtain ⟨hlt, -⟩ := List.getElem?_eq_some_iff.mp hm
      rw [List.length_append, List.length_mapIdx, List.length_take_of_le hlt]
      exact Nat.succ_le_succ hlt
  | fails =>
      rw [List.length_append, List.length_mapIdx]
      exact Nat.le_refl _

/-- The decisions are what they should be. -/
theorem course_walk (distinct : (c.methods.map Method.name).Nodup)
    (settled : ∀ o ∈ seen, o.1 ≠ .running) (late : ∀ o ∈ seen, ∀ m ∈ c.methods, m.gate ≤ o.2)
    (enough : c.methods.length < seen.length) : c.Course seen (c.walk none seen) := by
  classical
  by_cases ends : ∃ i, c.EndsAt seen i
  · -- The first method that ends the walk is reached, as none before it does.
    have hends : c.EndsAt seen (Nat.find ends) := Nat.find_spec ends
    have first : ∀ j < Nat.find ends, ¬ c.EndsAt seen j := fun j hj => Nat.find_min ends hj
    obtain ⟨m, -, hm, -⟩ := id hends
    obtain ⟨hlt, -⟩ := List.getElem?_eq_some_iff.mp hm
    rw [walk_of_not_ends distinct settled late enough hlt
      fun j hj => first j (Nat.lt_of_succ_lt_succ hj), walk_of_endsAt distinct hm hends]
    exact .succeeds hm hends first
  · have goesOn : ∀ i, ¬ c.EndsAt seen i := fun i h => ends ⟨i, h⟩
    rw [walk_of_not_ends distinct settled late enough (Nat.le_refl _) fun j _ => goesOn j,
      walk_of_no_ends distinct settled enough goesOn, List.take_length, reached_length]
    exact .fails goesOn

/-- **The whole walk**, for all configurations whose methods differ in name and for everything that
can be seen of their jobs when the request has counted for long enough.

The methods are put in use in their order, from the first one on.  The first method that succeeds
and stops on success, or else the last one if it succeeds, ends the walk; otherwise it ends behind
the last method, which is named, or at once where there are no methods.  So there is at most one
decision more than there are methods.

Wherever a method is in use and its jobs are seen to be still running, this method is waited for,
and the rest of the walk is what it would be if they had not been seen so. -/
theorem walks_forward (distinct : (c.methods.map Method.name).Nodup)
    (settled : ∀ o ∈ seen, o.1 ≠ .running) (late : ∀ o ∈ seen, ∀ m ∈ c.methods, m.gate ≤ o.2)
    (enough : c.methods.length < seen.length) :
    c.Course seen (c.walk none seen) ∧ (c.walk none seen).length ≤ c.methods.length + 1 ∧
      ∀ before name elapsed rest, c.after none before = some (some name) →
        c.walk none (before ++ rest) = c.walk none before ++ c.walk (some name) rest ∧
          c.walk none (before ++ (.running, elapsed) :: rest) =
            c.walk none before ++ .wait name :: c.walk (some name) rest := by
  have course := course_walk distinct settled late enough
  refine ⟨course, course.length_le, fun before name elapsed rest h => ?_⟩
  have known := exists_method?_of_after (by nofun) h
  exact ⟨walk_append h rest, by rw [walk_append h, walk_running known]⟩

/-- A method that does not stop on success, one that is used after a minute, and a last one. -/
def threeMethods : Config where
  name := "three"
  methods := [{ name := "first", stopOnSuccess := false },
    { name := "second", requireAfterSeconds := some 60 }, { name := "third" }]

/-- The success of the first method does not count, and that of the second one does. -/
def secondSucceeds : List Observation :=
  [JobState.missing, .succeeded, .succeeded, .failed].map (·, Duration.ofSeconds 60)

theorem walks_forward_threeMethods :
    (threeMethods.methods.map Method.name).Nodup ∧ (∀ o ∈ secondSucceeds, o.1 ≠ .running) ∧
      (∀ o ∈ secondSucceeds, ∀ m ∈ threeMethods.methods, m.gate ≤ o.2) ∧
      threeMethods.methods.length < secondSucceeds.length ∧
      threeMethods.Course secondSucceeds (threeMethods.walk none secondSucceeds) ∧
      threeMethods.after none (secondSucceeds.take 2) = some (some "second") ∧
      threeMethods.walk none (secondSucceeds.take 2 ++ [(.running, default), (.failed, default)]) =
        threeMethods.walk none (secondSucceeds.take 2) ++
          .wait "second" :: threeMethods.walk (some "second") [(.failed, default)] := by
  have distinct : (threeMethods.methods.map Method.name).Nodup := by decide
  have settled : ∀ o ∈ secondSucceeds, o.1 ≠ .running := by decide
  have late : ∀ o ∈ secondSucceeds, ∀ m ∈ threeMethods.methods, m.gate ≤ o.2 := by decide
  have enough : threeMethods.methods.length < secondSucceeds.length := by decide
  have inUse : threeMethods.after none (secondSucceeds.take 2) = some (some "second") := by decide
  obtain ⟨course, -, running⟩ := walks_forward distinct settled late enough
  exact ⟨distinct, settled, late, enough, course, inUse, (running _ _ _ _ inUse).2⟩

end Config

end NodeFencing
