import NodeFencing.Proofs.Reconcile.Entry
import NodeFencing.Proofs.Reconcile.Order

/-!
# What a log tells

Read without its times, the log of a request tells a story: which configuration was
chosen, then one method after another in the order of the configuration, each with what
has become of it, and at last what has become of the request.

How far a method has come can be seen twice, in the log and in the jobs.  The status in
between says which method is in use and whether its outcome is still to be recorded.  As
long as the three agree, a pass adds to the log just what the story goes on with, for it
records an outcome only of a job that the status still waits for.

## Main Definitions

* `Course` — how far a method has come, with what is told of it
* `Mandate.story` — what is told of the first methods of a configuration
* `Mandate.Logged` — a log that tells a story, with an end if the request has ended
* `Mandate.Recounts` — a status whose log, method in use and jobs agree

## Main statements

* `Mandate.Recounts.logged`, `Mandate.Logged.length_le` — what such a log is, and how long
* `Mandate.Recounts.observing` — the outcome of a job is recorded once
* `Mandate.Recounts.goesOn` — the next method is the one behind those of which is told
-/

namespace NodeFencing

/-! ### Courses of methods -/

/-- How far a method has come. -/
inductive Course where
  /-- There is no job that could carry it out. -/
  | aborted (cause : FencingError)
  | dispatched
  | succeeded
  | failed
  deriving Repr, DecidableEq

namespace Course

/-- Whether it is known what has become of the method. -/
def isClosed : Course → Bool
  | dispatched => false
  | _ => true

/-- The state of the jobs of the method. -/
def state : Course → JobState
  | aborted _ => .missing
  | dispatched => .running
  | succeeded => .succeeded
  | failed => .failed

/-- What is told of a method of a request. -/
def entries (r : Request) (m : Method) : Course → List Entry
  | aborted cause => [
      .of (some m.name) .methodSelected,
      .of (some m.name) .methodFailed "" (some cause.message)]
  | dispatched => [
      .of (some m.name) .methodSelected,
      .of (some m.name) .jobDispatched (r.jobName m.name)]
  | succeeded => [
      .of (some m.name) .methodSelected,
      .of (some m.name) .jobDispatched (r.jobName m.name),
      .of (some m.name) .methodSucceeded]
  | failed => [
      .of (some m.name) .methodSelected,
      .of (some m.name) .jobDispatched (r.jobName m.name),
      .of (some m.name) .methodFailed "" (some "job failed")]

theorem length_entries_le (r : Request) (m : Method) (c : Course) :
    (c.entries r m).length ≤ 3 := by
  cases c <;> simp [entries]

theorem isClosed_iff {c : Course} : c.isClosed = true ↔ c ≠ .dispatched := by
  cases c <;> simp [isClosed]

/-- It is known what has become of a method just if its jobs do not run any more. -/
theorem isClosed_iff_state {c : Course} : c.isClosed = true ↔ c.state ≠ .running := by
  cases c <;> simp [isClosed, state]

theorem eq_succeeded {c : Course} (h : c.state = .succeeded) : c = .succeeded := by
  cases c with
  | succeeded => rfl
  | _ => cases h

end Course

namespace Mandate

variable (u : Mandate)

/-! ### Stories -/

/-- What is told of the first methods of the configuration, given how far each has come. -/
def story (courses : List Course) : List Entry :=
  .of none .configSelected u.config.name ::
    (List.zipWith (Course.entries u.request) u.config.methods courses).flatten

/-- The end of a story: none as long as the request goes on, and else what has become of it. -/
inductive Ends (s : Status) : List Course → List Entry → Prop
  | goesOn {courses} (complete : s.complete = false) : Ends s courses []
  | success {front m} (complete : s.complete = true) (result : s.result = some .success)
      (method : u.config.methods[front.length]? = some m) :
      Ends s (front ++ [.succeeded]) [.of none .success ("fenced by " ++ m.name)]
  | givingUp {courses} (complete : s.complete = true) (result : s.result = some .givingUp)
      (all : courses.length = u.config.methods.length)
      (last : courses.getLast? ≠ some .succeeded) :
      Ends s courses [.of none .givingUp "all methods failed"]

/-- A log that tells a story.  It is known what has become of each method but the last one, and
when the request has ended, also of this one. -/
structure Logged (s : Status) (courses : List Course) (ending : List Entry) : Prop where
  log : s.log = u.story courses ++ ending
  bounded : courses.length ≤ u.config.methods.length
  closed : ∀ c ∈ courses.dropLast, c.isClosed = true
  settled : s.complete = true → ∀ c ∈ courses, c.isClosed = true
  ends : u.Ends s courses ending

/-- The jobs bear out how far a method has come. -/
def Bears (l : Ledger) (m : Method) : Course → Prop
  | .aborted e => m.buildJob u.config u.request u.settings.dispatch.build = .error e
  | .dispatched => l.Holds (some (u.request.jobName m.name))
  | course => ∃ j ∈ l.jobs, j.isFor u.request.name m.name = true ∧ j.state = course.state

/-- The log of a status, its method in use and the jobs agree.  An outcome is still to be recorded
just if the status has a job. -/
inductive Recounts (l : Ledger) (s : Status) : List Course → Prop
  | begun (log : s.log = u.story []) (idle : s.activeMethod = none) : Recounts l s []
  | told {front course m} (method : u.config.methods[front.length]? = some m)
      (closed : ∀ c ∈ front, c.isClosed = true) (active : s.activeMethod = some m.name)
      (job : s.activeJob.isSome = !course.isClosed) (bears : u.Bears l m course)
      (log : s.log = u.story (front ++ [course])) : Recounts l s (front ++ [course])

/-- The state of the jobs of the method that is told of last. -/
def lastState (courses : List Course) : JobState :=
  courses.getLast?.elim .missing Course.state

section Story

variable {u : Mandate} {start l l' : Ledger} {s s' : Status} {m : Method} {course : Course}
  {courses front : List Course} {ending : List Entry}

@[simp] theorem lastState_concat : lastState (front ++ [course]) = course.state := by
  simp [lastState]

/-- One method more is told of behind the others. -/
theorem story_concat (hm : u.config.methods[courses.length]? = some m) :
    u.story (courses ++ [course]) = u.story courses ++ course.entries u.request m := by
  have more {methods : List Method} (h : methods[courses.length]? = some m) :
      List.zipWith (Course.entries u.request) methods (courses ++ [course]) =
        List.zipWith (Course.entries u.request) methods courses ++
          [course.entries u.request m] := by
    clear hm
    induction courses generalizing methods with
    | nil =>
        obtain ⟨rest, rfl⟩ := List.head?_eq_some_iff.mp (List.head?_eq_getElem? ▸ h)
        simp
    | cons first courses ih =>
        cases methods with
        | nil => simp at h
        | cons m' methods => simpa using ih (by simpa using h)
  rw [story, story, more hm, List.flatten_concat, List.cons_append]

theorem length_story_le (courses : List Course) :
    (u.story courses).length ≤ 3 * courses.length + 1 := by
  have flat (methods : List Method) :
      (List.zipWith (Course.entries u.request) methods courses).flatten.length ≤
        3 * courses.length := by
    induction courses generalizing methods with
    | nil => simp
    | cons course rest ih =>
        cases methods with
        | nil => simp
        | cons m methods =>
            have hentries := course.length_entries_le u.request m
            have hrest := ih methods
            simp only [List.zipWith_cons_cons, List.flatten_cons, List.length_append,
              List.length_cons]
            omega
  exact Nat.succ_le_succ (flat u.config.methods)

/-- **A log that tells a story is short**: three entries a method at most, and two more. -/
theorem Logged.length_le (h : u.Logged s courses ending) :
    s.updates.length ≤ 3 * u.config.methods.length + 2 := by
  have hlog : s.updates.length = (u.story courses).length + ending.length := by
    rw [← List.length_append, ← h.log, Status.log, List.length_map]
  have hstory := u.length_story_le courses
  have hending : ending.length ≤ 1 := by
    cases h.ends <;> simp
  have := h.bounded
  omega

/-! ### Logs, statuses and jobs -/

theorem Bears.mono (h : u.Bears l m course) (hl : l.Grows l') : u.Bears l' m course := by
  cases course with
  | aborted e => exact h
  | dispatched => exact Ledger.Holds.mono h hl
  | succeeded =>
      obtain ⟨j, hj, hfor, hstate⟩ := h
      obtain ⟨j', hj', hage⟩ := hl j hj
      exact ⟨j', hj', (hage.isFor _ _).trans hfor, hage.succeeded hstate⟩
  | failed =>
      obtain ⟨j, hj, hfor, hstate⟩ := h
      obtain ⟨j', hj', hage⟩ := hl j hj
      exact ⟨j', hj', (hage.isFor _ _).trans hfor, hage.failed hstate⟩

/-- What is found of the jobs of a method, given how far it has come by its log. -/
theorem Bears.jobs (h : u.Bears l m course) (hl : u.Orderly start l) (hu : u.Outset start)
    {index : Nat} (hm : u.config.methods[index]? = some m) :
    (∃ e, course = .aborted e) ∧ l.jobs.filter (·.isFor u.request.name m.name) = [] ∨
      ∃ j, l.jobs.filter (·.isFor u.request.name m.name) = [j] ∧ u.Dispatched l index m j ∧
        (course = .dispatched ∨ j.state = course.state) := by
  cases course with
  | aborted e =>
      refine .inl ⟨⟨e, rfl⟩, List.eq_nil_iff_forall_not_mem.mpr fun j hj => ?_⟩
      obtain ⟨hj, hfor⟩ := List.mem_filter.mp hj
      exact (hl.dispatched_of_isFor hu hm hj hfor).buildable ⟨e, h⟩
  | dispatched =>
      obtain ⟨j, hj, hname⟩ := h
      have hdone := hl.dispatched_of_name hu hm hj hname
      exact .inr ⟨j, hl.filter_isFor_eq hu hj hdone, hdone, .inl rfl⟩
  | succeeded =>
      obtain ⟨j, hj, hfor, hstate⟩ := h
      have hdone := hl.dispatched_of_isFor hu hm hj hfor
      exact .inr ⟨j, hl.filter_isFor_eq hu hj hdone, hdone, .inr hstate⟩
  | failed =>
      obtain ⟨j, hj, hfor, hstate⟩ := h
      have hdone := hl.dispatched_of_isFor hu hm hj hfor
      exact .inr ⟨j, hl.filter_isFor_eq hu hj hdone, hdone, .inr hstate⟩

theorem Recounts.mono (h : u.Recounts l s courses) (hl : l.Grows l') :
    u.Recounts l' s courses := by
  cases h with
  | begun log idle => exact .begun log idle
  | told method closed active job bears log =>
      exact .told method closed active job (bears.mono hl) log

theorem Recounts.log (h : u.Recounts l s courses) : s.log = u.story courses := by
  cases h with
  | begun log => exact log
  | told _ _ _ _ _ log => exact log

/-- **A status whose log, method and jobs agree**, as long as the request goes on, has a log that
tells a story. -/
theorem Recounts.logged (h : u.Recounts l s courses) (complete : s.complete = false) :
    u.Logged s courses [] where
  log := h.log.trans (List.append_nil _).symm
  bounded := by
    cases h with
    | begun => exact Nat.zero_le _
    | told method => simpa [Nat.succ_le_iff] using (List.getElem?_eq_some_iff.mp method).1
  closed := by
    cases h with
    | begun => simp
    | told _ closed => simpa using closed
  settled hc := absurd hc (by simp [complete])
  ends := .goesOn complete

/-! ### Steps of a pass -/

/-- The story begins when the configuration is noted. -/
theorem recounts_choosing (t : Instant) :
    u.Recounts l (Status.choosing {} u.config t) [] := by
  refine .begun ?_ rfl
  rw [Status.log_choosing _ _ (by simp)]
  simp [Status.log, story]

/-- What has become of a job is told behind that it was created. -/
theorem story_closes (hm : u.config.methods[front.length]? = some m) :
    u.story (front ++ [.succeeded]) =
        u.story (front ++ [.dispatched]) ++ [.of (some m.name) .methodSucceeded] ∧
      u.story (front ++ [.failed]) =
        u.story (front ++ [.dispatched]) ++
          [.of (some m.name) .methodFailed "" (some "job failed")] := by
  simp only [story_concat hm, List.append_assoc]
  exact ⟨rfl, rfl⟩

/-- A status that waits for a job records what has become of it. -/
theorem recounts_observing_job (hm : u.config.methods[front.length]? = some m)
    (closed : ∀ c ∈ front, c.isClosed = true) (active : s.activeMethod = some m.name)
    (job : s.activeJob.isSome = true) (log : s.log = u.story (front ++ [.dispatched])) {j : Job}
    (hj : j ∈ l.jobs) (carries : m.Carries u.config u.request j) (t : Instant) :
    ∃ course, course.state = j.state ∧
      u.Recounts l (s.observing m.name [j] t) (front ++ [course]) := by
  cases hstate : j.state with
  | running =>
      rw [Status.observing_of_running job ((methodState_singleton j).trans hstate)]
      exact ⟨.dispatched, rfl, .told hm closed active job ⟨j, hj, carries.name⟩ log⟩
  | succeeded =>
      rw [Status.observing_of_succeeded job ((methodState_singleton j).trans hstate)]
      refine ⟨.succeeded, rfl, .told hm closed active rfl ⟨j, hj, carries.isFor, hstate⟩ ?_⟩
      rw [(story_closes hm).1, ← log, ← Status.log_record s t]
      rfl
  | failed =>
      rw [Status.observing_of_failed job ((methodState_singleton j).trans hstate)]
      refine ⟨.failed, rfl, .told hm closed active rfl ⟨j, hj, carries.isFor, hstate⟩ ?_⟩
      rw [(story_closes hm).2, ← log, ← Status.log_record s t]
      rfl
  | missing => exact absurd hstate j.state_ne_missing

/-- **The outcome of a job is recorded once.**  A status that waits for a job records what has
become of it, and one that does not records nothing. -/
theorem Recounts.observing (h : u.Recounts l s courses) (hl : u.Orderly start l)
    (hu : u.Outset start) {method : String} (hmethod : s.activeMethod = some method)
    (t : Instant) :
    ∃ courses',
      u.Recounts l (s.observing method (l.jobs.filter (·.isFor u.request.name method)) t) courses' ∧
      methodState (l.jobs.filter (·.isFor u.request.name method)) = lastState courses' := by
  cases h with
  | begun _ idle => exact nomatch hmethod.symm.trans idle
  | @told front course m hm closed active job bears log =>
      obtain rfl : method = m.name := Option.some.inj (hmethod.symm.trans active)
      rcases bears.jobs hl hu hm with ⟨⟨e, rfl⟩, hjobs⟩ | ⟨j, hjobs, hdone, hcourse⟩
      · -- Without a job there is nothing to be recorded.
        have hnone : s.activeJob = none := by simpa [Course.isClosed] using job
        rw [hjobs, Status.observing_of_none hnone (by decide)]
        exact ⟨_, .told hm closed active job bears log, by rw [lastState_concat]; rfl⟩
      · rw [hjobs, methodState_singleton]
        have hj : j ∈ l.jobs := (List.mem_filter.mp (hjobs ▸ List.mem_singleton_self j)).1
        by_cases waits : course = .dispatched
        · subst waits
          obtain ⟨course, hstate, recounts⟩ :=
            recounts_observing_job hm closed active job log hj hdone.carries t
          exact ⟨_, recounts, by rw [lastState_concat, hstate]⟩
        · -- What has become of this job is recorded already.
          have hstate := hcourse.resolve_left waits
          have ended := Course.isClosed_iff.mpr waits
          have hnone : s.activeJob = none := by simpa [ended] using job
          have past : methodState [j] ≠ .running := by
            rw [methodState_singleton, hstate]
            exact Course.isClosed_iff_state.mp ended
          rw [Status.observing_of_none hnone past]
          exact ⟨_, .told hm closed active job bears log, by rw [lastState_concat, hstate]⟩

/-- The method in use is the one that is told of last. -/
theorem Recounts.active (h : u.Recounts l s courses) (hu : u.config.fault? = none) :
    courses = [] ∧ s.activeMethod.bind u.config.method? = none ∨
      ∃ front course m, courses = front ++ [course] ∧ (∀ c ∈ front, c.isClosed = true) ∧
        u.config.methods[front.length]? = some m ∧ s.activeMethod = some m.name ∧
        s.activeMethod.bind u.config.method? = some (front.length, m) := by
  cases h with
  | begun _ idle => exact .inl ⟨rfl, by rw [idle]; rfl⟩
  | @told front course m hm closed active =>
      refine .inr ⟨front, course, m, rfl, closed, hm, active, ?_⟩
      rw [active]
      exact Config.method?_eq hu hm

/-- **The next method** is the one behind those of which is told, and it is known what has become
of them. -/
theorem Recounts.goesOn (h : u.Recounts l s courses) (hu : u.config.fault? = none)
    {elapsed : Duration} {index : Nat}
    (hnext : u.config.nextStep s.activeMethod (lastState courses) elapsed = .dispatch index m) :
    u.config.methods[courses.length]? = some m ∧ ∀ c ∈ courses, c.isClosed = true := by
  obtain ⟨hm, hcase⟩ := Config.nextStep_dispatch hnext
  rcases h.active hu with ⟨rfl, hnone⟩ | ⟨front, course, m', rfl, closed, -, -, hsome⟩
  · rcases hcase with ⟨-, rfl⟩ | ⟨i, m₀, hactive, -⟩
    · exact ⟨hm, by simp⟩
    · exact nomatch hnone.symm.trans hactive
  · rcases hcase with ⟨hactive, -⟩ | ⟨i, m₀, hactive, rfl, hpasses⟩
    · exact nomatch hsome.symm.trans hactive
    · obtain ⟨rfl, rfl⟩ := Prod.mk.inj (Option.some.inj (hsome.symm.trans hactive))
      rw [lastState_concat] at hpasses
      have ended : course.isClosed = true := by
        refine Course.isClosed_iff_state.mpr fun hrunning => ?_
        rcases hpasses with hfailed | hmissing | ⟨hsucceeded, -⟩ <;> simp_all
      exact ⟨by simpa using hm, by simpa [or_imp, forall_and] using ⟨closed, ended⟩⟩

/-- A method for which no job can be made is told of behind the others. -/
theorem Recounts.aborts (h : u.Recounts l s courses)
    (hm : u.config.methods[courses.length]? = some m) (ended : ∀ c ∈ courses, c.isClosed = true)
    {e : FencingError}
    (hbuild : m.buildJob u.config u.request u.settings.dispatch.build = .error e) (t t' : Instant) :
    u.Recounts l
      ((s.selecting m.name t).record t' (some m.name) .methodFailed "" (some e.message))
      (courses ++ [.aborted e]) := by
  refine .told hm ended rfl rfl hbuild ?_
  rw [Status.log_record, Status.log_selecting, h.log, story_concat hm, List.append_assoc]
  rfl

/-- A method whose job is created is told of behind the others. -/
theorem Recounts.dispatches (h : u.Recounts l s courses)
    (hm : u.config.methods[courses.length]? = some m) (ended : ∀ c ∈ courses, c.isClosed = true)
    (holds : l.Holds (some (u.request.jobName m.name))) (t t' : Instant) :
    u.Recounts l ((s.selecting m.name t).dispatched m.name (u.request.jobName m.name) t')
      (courses ++ [.dispatched]) := by
  refine .told hm ended rfl rfl holds ?_
  rw [Status.log_dispatched, Status.log_selecting, h.log, story_concat hm, List.append_assoc]
  rfl

/-- **With success** the method that is told of last has succeeded. -/
theorem Recounts.success (h : u.Recounts l s courses) {elapsed : Duration} {name : String}
    (hnext : u.config.nextStep s.activeMethod (lastState courses) elapsed = .complete name)
    (t : Instant) :
    u.Logged (s.finalize t .success ("fenced by " ++ name)) courses
      [.of none .success ("fenced by " ++ name)] := by
  obtain ⟨hactive, hstate⟩ := Config.nextStep_complete hnext
  cases h with
  | begun log idle => exact nomatch hactive.symm.trans idle
  | @told front course m hm closed active job bears log =>
      obtain rfl : name = m.name := Option.some.inj (hactive.symm.trans active)
      rw [lastState_concat] at hstate
      obtain rfl : course = .succeeded := Course.eq_succeeded hstate
      have ended : ∀ c ∈ front ++ [.succeeded], c.isClosed = true := by
        simpa [or_imp, forall_and] using ⟨closed, rfl⟩
      refine ⟨by rw [Status.log_finalize, log], ?_, by simpa using closed, fun _ => ended,
        .success rfl rfl hm⟩
      simpa [Nat.succ_le_iff] using (List.getElem?_eq_some_iff.mp hm).1

/-- **When there is no method left** all of them are told of, and the last has not succeeded. -/
theorem Recounts.givingUp (h : u.Recounts l s courses) (hu : u.config.fault? = none)
    {elapsed : Duration} {last : Option String}
    (hnext : u.config.nextStep s.activeMethod (lastState courses) elapsed = .exhausted last)
    (t : Instant) :
    u.Logged (s.finalize t .givingUp "all methods failed") courses
      [.of none .givingUp "all methods failed"] := by
  have logged : ∀ {courses}, u.Recounts l s courses → (∀ c ∈ courses, c.isClosed = true) →
      courses.length = u.config.methods.length → courses.getLast? ≠ some .succeeded →
      u.Logged (s.finalize t .givingUp "all methods failed") courses
        [.of none .givingUp "all methods failed"] := by
    intro courses h ended all last
    exact ⟨by rw [Status.log_finalize, h.log], Nat.le_of_eq all,
      fun c hc => ended c (List.dropLast_subset _ hc), fun _ => ended, .givingUp rfl rfl all last⟩
  have hcase := Config.nextStep_exhausted hnext
  rcases h.active hu with ⟨rfl, hnone⟩ | ⟨front, course, m, rfl, closed, hm, -, hsome⟩
  · rcases hcase with ⟨-, hnil⟩ | ⟨i, m₀, hactive, -⟩
    · exact logged h (by simp) (by simp [hnil]) (by simp)
    · exact nomatch hnone.symm.trans hactive
  · rcases hcase with ⟨hactive, -⟩ | ⟨i, m₀, hactive, hlast, hstate⟩
    · exact nomatch hsome.symm.trans hactive
    · obtain ⟨rfl, rfl⟩ := Prod.mk.inj (Option.some.inj (hsome.symm.trans hactive))
      rw [lastState_concat] at hstate
      have ended : course.isClosed = true :=
        Course.isClosed_iff_state.mpr fun hrunning => by simp [hrunning] at hstate
      have lost : course ≠ .succeeded := by
        rintro rfl
        simp [Course.state] at hstate
      have hlt := (List.getElem?_eq_some_iff.mp hm).1
      refine logged h (by simpa [or_imp, forall_and] using ⟨closed, ended⟩) ?_ (by simpa using lost)
      rw [List.length_append, List.length_singleton]
      omega

end Story

end Mandate

end NodeFencing
