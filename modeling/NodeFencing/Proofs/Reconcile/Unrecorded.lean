import NodeFencing.Proofs.Method.State
import NodeFencing.Proofs.Program.Trial
import NodeFencing.Proofs.Reconcile.Route

/-!
# Jobs that run although none is recorded

A request may have a method in use and no job on record, while a job of this method runs: the
write that should have recorded it was lost, or the job had failed before and was taken up
again.  Then a job is adopted, that is, its name is recorded.

Whether one is adopted is decided by all jobs of the method together, but the name is that of
the first one of the list.  This may be a job that has failed long ago and is left beside the
one that runs.  So what is adopted is certain to run only where the first job does, or another
one of the same name.

## Main Definitions

* `Status.Adopts` — the name of a job is recorded because of what was found
* `Status.AdoptsRunning` — whatever is adopted runs

## Main statements

* `observe_performs_iff` — what is done and found where no job is on record
* `Status.adopts_iff` — what is adopted
* `Status.adoptsRunning_iff` — the lists of jobs from which only running ones are adopted
* `Status.spent_adopted` — a job that has failed is adopted beside one that runs
-/

namespace NodeFencing

variable {s : Status} {request method name : String} {jobs : List Job}

/-! ### Without a job on record -/

/-- A job is adopted if the jobs are at work. -/
theorem Status.observing_of_unrecorded (hjob : s.activeJob = none)
    (hstate : methodState jobs = .running) (t : Instant) :
    s.observing method jobs t = { s with activeJob := jobs.findSome? (·.metadata.name) } := by
  simp [observing, hjob, hstate]

/-- **What is done and found where no job is on record.**  The jobs of the method are asked for, and
nothing else is done; the time does not matter. -/
theorem observe_performs_iff {acts : List (Act RequestStore)}
    {result : Except TaskError (Status × JobState)} (hm : s.activeMethod = some method)
    (hjob : s.activeJob = none) (t : Instant) :
    (observe request s).run.Performs acts result ↔ ∃ answer : Except TaskError (List Job),
      acts = [.call (.methodJobs request method) answer] ∧
        result = answer.map fun jobs => (s.observing method jobs t, methodState jobs) := by
  have look : observe request s = do
      let jobs ← ExceptT.mk (RequestStore.methodJobs request method)
      return (s.observing method jobs t, methodState jobs) := by
    unfold observe Status.observing
    simp only [hm, hjob]
    congr 1
    funext jobs
    cases methodState jobs <;> rfl
  rw [look, Task.performs_bind_iff]
  constructor
  · rintro (⟨before, jobs, behind, rfl, hask, hrest⟩ | ⟨e, hask, rfl⟩)
    · obtain ⟨rfl, rfl⟩ := Program.performs_done_iff.mp hrest
      obtain rfl := Program.performs_ask_iff.mp hask
      exact ⟨.ok jobs, rfl, rfl⟩
    · exact ⟨.error e, Program.performs_ask_iff.mp hask, rfl⟩
  · rintro ⟨answer, rfl, rfl⟩
    cases answer with
    | ok jobs => exact .inl ⟨_, jobs, [], rfl, Program.performs_ask _, .done⟩
    | error e => exact .inr ⟨e, Program.performs_ask _, rfl⟩

/-! ### What is adopted -/

namespace Status

/-- A look at the jobs of the method in use, which finds these, puts this name on record. -/
def Adopts (s : Status) (request : String) (jobs : List Job) (name : String) : Prop :=
  ∃ method acts s' state,
    Act.call (I := RequestStore) (.methodJobs request method) (.ok jobs) ∈ acts ∧
      (observe request s).run.Performs acts (.ok (s', state)) ∧ s'.activeJob = some name

/-- Whatever is put on record when these jobs are found is the name of one of them that runs. -/
def AdoptsRunning (s : Status) (request : String) (jobs : List Job) : Prop :=
  ∀ name, s.Adopts request jobs name →
    ∃ j ∈ jobs, j.metadata.name = some name ∧ j.state = .running

/-- **What is adopted** is the first job that has a name, if the jobs are at work. -/
theorem adopts_iff (hm : s.activeMethod = some method) (hjob : s.activeJob = none) :
    s.Adopts request jobs name ↔
      methodState jobs = .running ∧ jobs.findSome? (·.metadata.name) = some name := by
  have finds {acts result} : (observe request s).run.Performs acts result ↔ _ :=
    observe_performs_iff hm hjob default
  constructor
  · rintro ⟨method', acts, s', state, hcall, hperforms, hname⟩
    obtain ⟨answer, rfl, hresult⟩ := finds.mp hperforms
    cases List.mem_singleton.mp hcall
    obtain ⟨rfl, rfl⟩ := Prod.mk.inj (Except.ok.inj hresult)
    by_cases hstate : methodState jobs = .running
    · rw [observing_of_unrecorded hjob hstate] at hname
      exact ⟨hstate, hname⟩
    · rw [observing_of_none hjob hstate, hjob] at hname
      cases hname
  · rintro ⟨hstate, hname⟩
    refine ⟨method, _, _, _, List.mem_singleton_self _, finds.mpr ⟨.ok jobs, rfl, rfl⟩, ?_⟩
    rw [observing_of_unrecorded hjob hstate]
    exact hname

/-- Where every job has a name, the first name is that of the first job. -/
theorem findSome?_name (named : ∀ j ∈ jobs, j.metadata.name.isSome = true) :
    jobs.findSome? (·.metadata.name) = jobs.head?.bind (·.metadata.name) := by
  cases jobs with
  | nil => rfl
  | cons first rest =>
      obtain ⟨name, hname⟩ := Option.isSome_iff_exists.mp (named first List.mem_cons_self)
      simp [hname]

/-- **Only running jobs are adopted** from a list of jobs that have names, if no job is on record,
just if one of those that run has the name of the first job, or the jobs are not at work.  Where no
two jobs share a name, this means that the first job runs. -/
theorem adoptsRunning_iff (hm : s.activeMethod = some method) (hjob : s.activeJob = none)
    (named : ∀ j ∈ jobs, j.metadata.name.isSome = true) :
    (s.AdoptsRunning request jobs ↔ (methodState jobs = .running →
      ∃ j ∈ jobs, j.state = .running ∧ j.metadata.name = jobs.head?.bind (·.metadata.name))) ∧
    ((jobs.map (·.metadata.name)).Nodup →
      (s.AdoptsRunning request jobs ↔ (methodState jobs = .running →
        ∃ first, jobs.head? = some first ∧ first.state = .running))) := by
  have general : s.AdoptsRunning request jobs ↔ (methodState jobs = .running →
      ∃ j ∈ jobs, j.state = .running ∧ j.metadata.name = jobs.head?.bind (·.metadata.name)) := by
    simp only [AdoptsRunning, adopts_iff hm hjob, findSome?_name named]
    constructor
    · intro h hstate
      obtain ⟨first, rest, rfl⟩ : ∃ first rest, jobs = first :: rest := by
        refine List.exists_cons_of_ne_nil ?_
        rintro rfl
        cases hstate
      obtain ⟨name, hname⟩ := Option.isSome_iff_exists.mp (named first List.mem_cons_self)
      obtain ⟨j, hj, hjname, hrunning⟩ := h name ⟨hstate, hname⟩
      exact ⟨j, hj, hrunning, hjname.trans hname.symm⟩
    · rintro h name ⟨hstate, hname⟩
      obtain ⟨j, hj, hrunning, hjname⟩ := h hstate
      exact ⟨j, hj, hjname.trans hname, hrunning⟩
  refine ⟨general, fun distinct => general.trans (forall_congr' fun hstate => ?_)⟩
  constructor
  · rintro ⟨j, hj, hrunning, hname⟩
    obtain ⟨first, rest, rfl⟩ := List.exists_cons_of_ne_nil (List.ne_nil_of_mem hj)
    obtain rfl : j = first := List.inj_on_of_nodup_map distinct hj List.mem_cons_self hname
    exact ⟨j, rfl, hrunning⟩
  · rintro ⟨first, hfirst, hrunning⟩
    exact ⟨first, List.mem_of_mem_head? hfirst, hrunning, by rw [hfirst]; rfl⟩

end Status

/-! ### A job that is left beside one that runs -/

/-- A job that has failed, of an earlier request of the same name. -/
def spent : Job where
  metadata := {
    name := some "fence-fence-node-1-power-aaaaaaaa"
    labels := some [(requestLabel, "fence-node-1"), (methodLabel, "power")] }
  status := some { conditions := some [⟨"Failed", "True", none⟩] }

/-- A job of which a pod has failed, and another one runs. -/
def resumed : Job where
  metadata := {
    name := some "fence-fence-node-1-power-bbbbbbbb"
    labels := some [(requestLabel, "fence-node-1"), (methodLabel, "power")] }
  status := some { active := some 1, failed := some 1 }

/-- The status of a request that waits for no job of its method. -/
def unrecorded : Status where
  config := some "racks"
  activeMethod := some "power"

/-- Both jobs are found, and the one that has failed is adopted. -/
theorem Status.spent_adopted :
    (∀ j ∈ [spent, resumed], j.isFor "fence-node-1" "power" = true) ∧
      unrecorded.Adopts "fence-node-1" [spent, resumed] "fence-fence-node-1-power-aaaaaaaa" ∧
      ¬ unrecorded.AdoptsRunning "fence-node-1" [spent, resumed] := by
  have adopted : unrecorded.Adopts "fence-node-1" [spent, resumed]
      "fence-fence-node-1-power-aaaaaaaa" :=
    (Status.adopts_iff rfl rfl).mpr ⟨by decide, rfl⟩
  refine ⟨by decide, adopted, fun runs => ?_⟩
  obtain ⟨j, hj, hname, hrunning⟩ := runs _ adopted
  rcases List.mem_cons.mp hj with rfl | hj
  · exact absurd hrunning (by decide)
  · rw [List.mem_singleton.mp hj] at hname
    exact absurd hname (by decide)

/-- Where the job that runs is listed first, it is adopted. -/
theorem Status.adoptsRunning_iff_resumed :
    (∀ j ∈ [resumed, spent], j.metadata.name.isSome = true) ∧
      ([resumed, spent].map (·.metadata.name)).Nodup ∧
      unrecorded.AdoptsRunning "fence-node-1" [resumed, spent] ∧
      ¬ unrecorded.AdoptsRunning "fence-node-1" [spent, resumed] := by
  have named : ∀ j ∈ [resumed, spent], j.metadata.name.isSome = true := by decide
  have named' : ∀ j ∈ [spent, resumed], j.metadata.name.isSome = true := by decide
  have distinct : ([resumed, spent].map (·.metadata.name)).Nodup := by decide
  refine ⟨named, distinct, ?_, ?_⟩
  · exact ((Status.adoptsRunning_iff rfl rfl named).2 distinct).mpr fun _ =>
      ⟨resumed, rfl, by decide⟩
  · intro runs
    obtain ⟨first, hfirst, hrunning⟩ :=
      ((Status.adoptsRunning_iff rfl rfl named').2 (by decide)).mp runs (by decide)
    obtain rfl := Option.some.inj hfirst
    exact absurd hrunning (by decide)

end NodeFencing
