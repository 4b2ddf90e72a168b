import NodeFencing.Proofs.Escalation
import NodeFencing.Proofs.Method.Job
import NodeFencing.Proofs.Reconcile.Ledger
import NodeFencing.Proofs.Registry

/-!
# What is undertaken for a request

A request is carried out with a configuration, method by method.  A method is done with
if no job can be made for it, if its job has failed, or if its job has succeeded where
that does not end the request.  Jobs neither go away nor recover, so a method that is
done with stays so.

A ledger is orderly if every job of the request belongs to a method in front of which all
are done with, no method has two jobs, and every status of the request, old or new, puts
at most such a method in use.  This says the same of all copies at once, so it does not
matter which of them is worked on.

## Main Definitions

* `Job.Ages`, `Ledger.Ages` — what happens to jobs and to a ledger by themselves
* `Mandate` — a request that is carried out with a configuration
* `Mandate.Passed`, `Mandate.Reached` — the methods that are done with
* `Mandate.Stands` — what a status may say
* `Mandate.Outset`, `Mandate.Orderly` — how a mandate begins, and how it is kept

## Main statements

* `Mandate.Outset.orderly` — a mandate begins in order
* `Mandate.Orderly.serves`, `Mandate.Orderly.ages` — one call, and one change by others
* `Mandate.Orderly.jobs_of_inUse` — what is found of the method in use
-/

namespace NodeFencing

/-! ### Time goes by -/

/-- A job some time later: it is the same job, and if it has ended, it has ended in the same way. -/
structure Job.Ages (j j' : Job) : Prop where
  name : j'.metadata.name = j.metadata.name
  labels : j'.metadata.labels = j.metadata.labels
  succeeded : j.state = .succeeded → j'.state = .succeeded
  failed : j.state = .failed → j'.state = .failed

namespace Job.Ages

variable {j j' j'' : Job}

theorem refl (j : Job) : j.Ages j :=
  ⟨rfl, rfl, id, id⟩

theorem trans (h : j.Ages j') (h' : j'.Ages j'') : j.Ages j'' where
  name := h'.name.trans h.name
  labels := h'.labels.trans h.labels
  succeeded := h'.succeeded ∘ h.succeeded
  failed := h'.failed ∘ h.failed

theorem label? (h : j.Ages j') (key : String) : j'.metadata.label? key = j.metadata.label? key := by
  simp only [Meta.label?, h.labels]

theorem isFor (h : j.Ages j') (request method : String) :
    j'.isFor request method = j.isFor request method := by
  rw [Bool.eq_iff_iff, Job.isFor_iff, Job.isFor_iff, h.label?, h.label?]

/-- Of several jobs, each is one of the later ones. -/
theorem exists_later {jobs jobs' : List Job} (h : List.Forall₂ Job.Ages jobs jobs') :
    ∀ j ∈ jobs, ∃ j' ∈ jobs', j.Ages j' := by
  induction h with
  | nil => simp
  | cons hage _ ih =>
      intro j hj
      rcases List.mem_cons.mp hj with rfl | hj
      · exact ⟨_, List.mem_cons_self, hage⟩
      · obtain ⟨j', hj', hage'⟩ := ih j hj
        exact ⟨j', List.mem_cons_of_mem _ hj', hage'⟩

/-- Of several jobs, each was one of the earlier ones. -/
theorem exists_earlier {jobs jobs' : List Job} (h : List.Forall₂ Job.Ages jobs jobs') :
    ∀ j' ∈ jobs', ∃ j ∈ jobs, j.Ages j' := by
  induction h with
  | nil => simp
  | cons hage _ ih =>
      intro j' hj'
      rcases List.mem_cons.mp hj' with rfl | hj'
      · exact ⟨_, List.mem_cons_self, hage⟩
      · obtain ⟨j, hj, hage'⟩ := ih j' hj'
        exact ⟨j, List.mem_cons_of_mem _ hj, hage'⟩

theorem map_name {jobs jobs' : List Job} (h : List.Forall₂ Job.Ages jobs jobs') :
    jobs'.map (·.metadata.name) = jobs.map (·.metadata.name) := by
  induction h with
  | nil => rfl
  | cons hage _ ih => simp only [List.map_cons, hage.name, ih]

end Job.Ages

namespace Ledger

/-- What happens to a ledger by itself: jobs run, and someone may change a request in anything that
does not matter for its jobs. -/
inductive Ages (l : Ledger) : Ledger → Prop
  | jobs {jobs} (h : List.Forall₂ Job.Ages l.jobs jobs) : Ages l { l with jobs }
  | edited {r r'} (latest : l.latest? = some r) (kin : r.Kin r') (same : r'.status = r.status) :
      Ages l (l.add r')

/-- What happens by itself stores no other status. -/
theorem Ages.status_of_mem {l l' : Ledger} (h : l.Ages l') {r : Request} (hr : r ∈ l'.revisions) :
    ∃ r₀ ∈ l.revisions, r₀.Kin r ∧ r.status = r₀.status := by
  cases h with
  | jobs => exact ⟨r, hr, .refl r, rfl⟩
  | edited latest kin same =>
      rcases List.mem_append.mp hr with hold | hnew
      · exact ⟨r, hold, .refl r, rfl⟩
      · obtain rfl := List.mem_singleton.mp hnew
        exact ⟨_, mem_of_latest? latest, kin, same⟩

/-- A ledger some time later has at least the same jobs. -/
def Grows (l l' : Ledger) : Prop :=
  ∀ j ∈ l.jobs, ∃ j' ∈ l'.jobs, j.Ages j'

variable {l l' l'' : Ledger}

theorem Grows.of_subset (h : l.jobs ⊆ l'.jobs) : l.Grows l' :=
  fun j hj => ⟨j, h hj, .refl j⟩

theorem Grows.refl (l : Ledger) : l.Grows l :=
  .of_subset (List.Subset.refl _)

theorem Grows.trans (h : l.Grows l') (h' : l'.Grows l'') : l.Grows l'' := by
  intro j hj
  obtain ⟨j', hj', hage⟩ := h j hj
  obtain ⟨j'', hj'', hage'⟩ := h' j' hj'
  exact ⟨j'', hj'', hage.trans hage'⟩

theorem Holds.mono {name : Option String} (h : l.Holds name) (hl : l.Grows l') :
    l'.Holds name := by
  obtain ⟨j, hj, rfl⟩ := h
  obtain ⟨j', hj', hage⟩ := hl j hj
  exact ⟨j', hj', hage.name⟩

end Ledger

/-! ### Mandates -/

/-- A request that is carried out with a configuration, under some settings. -/
structure Mandate where
  request : Request
  config : Config
  settings : Settings

namespace Mandate

variable (u : Mandate)

/-- A method for which no job can be made. -/
def Unbuildable (m : Method) : Prop :=
  ∃ e, m.buildJob u.config u.request u.settings.dispatch.build = .error e

/-- A method that is done with: it has no job, or its job has failed, or has succeeded where that
does not end the request. -/
def Passed (l : Ledger) (m : Method) : Prop :=
  u.Unbuildable m ∨ ∃ j ∈ l.jobs, j.isFor u.request.name m.name = true ∧
    (j.state = .failed ∨ j.state = .succeeded ∧ m.stopOnSuccess = false)

/-- All methods in front of a position are done with. -/
def Reached (l : Ledger) (index : Nat) : Prop :=
  ∀ k < index, ∃ m, u.config.methods[k]? = some m ∧ u.Passed l m

/-- A job that has the label of the request. -/
def Own (j : Job) : Prop :=
  j.metadata.label? requestLabel = some (labelValue u.request.name)

instance (j : Job) : Decidable (u.Own j) :=
  inferInstanceAs (Decidable (_ = _))

/-- A job with which the request has nothing to do. -/
structure Alien (j : Job) : Prop where
  label : ¬ u.Own j
  name : ∀ m ∈ u.config.methods, j.metadata.name ≠ some (u.request.jobName m.name)

/-- The job of the method at a position, which is in use or done with. -/
structure Dispatched (l : Ledger) (index : Nat) (m : Method) (j : Job) : Prop where
  method : u.config.methods[index]? = some m
  carries : m.Carries u.config u.request j
  buildable : ¬ u.Unbuildable m
  reached : u.Reached l index

/-- The method at a position is in use by a status: its job exists, or it has none. -/
structure InUse (l : Ledger) (s : Status) (index : Nat) (m : Method) : Prop where
  method : u.config.methods[index]? = some m
  active : s.activeMethod = some m.name
  reached : u.Reached l index
  job : l.Holds (some (u.request.jobName m.name)) ∨ u.Unbuildable m ∧ s.activeJob = none

/-- What a status may say: that no configuration is chosen, or that the one is, and which of its
methods is in use, if any. -/
inductive Stands (l : Ledger) (s : Status) : Prop
  | unchosen (config : s.config = none) (idle : s.activeMethod = none)
  | idle (config : s.config = some u.config.name) (idle : s.activeMethod = none)
  | active {index m} (config : s.config = some u.config.name) (h : u.InUse l s index m)

/-! ### What stays as it is -/

section Mono

variable {u : Mandate} {l l' : Ledger} {m : Method} {index : Nat} {j j' : Job} {s s' : Status}

theorem Passed.mono (h : u.Passed l m) (hl : l.Grows l') : u.Passed l' m := by
  rcases h with hm | ⟨j, hj, hfor, hstate⟩
  · exact .inl hm
  · obtain ⟨j', hj', hage⟩ := hl j hj
    refine .inr ⟨j', hj', (hage.isFor _ _).trans hfor, ?_⟩
    exact hstate.imp hage.failed fun ⟨hdone, hgo⟩ => ⟨hage.succeeded hdone, hgo⟩

theorem Reached.mono (h : u.Reached l index) (hl : l.Grows l') : u.Reached l' index := by
  intro k hk
  obtain ⟨m, hm, hpassed⟩ := h k hk
  exact ⟨m, hm, hpassed.mono hl⟩

/-- The position behind a method that is done with is reached. -/
theorem Reached.succ (h : u.Reached l index) (hm : u.config.methods[index]? = some m)
    (hpassed : u.Passed l m) : u.Reached l (index + 1) := by
  intro k hk
  rcases Nat.lt_succ_iff_lt_or_eq.mp hk with hlt | rfl
  · exact h k hlt
  · exact ⟨m, hm, hpassed⟩

theorem Alien.ages (h : u.Alien j) (hage : j.Ages j') : u.Alien j' where
  label hown := h.label ((hage.label? _).symm.trans hown)
  name m hm hname := h.name m hm (hage.name.symm.trans hname)

theorem Dispatched.mono (h : u.Dispatched l index m j) (hl : l.Grows l') (hage : j.Ages j') :
    u.Dispatched l' index m j' :=
  ⟨h.method, h.carries.congr hage.name hage.labels, h.buildable, h.reached.mono hl⟩

theorem InUse.mono (h : u.InUse l s index m) (hl : l.Grows l') : u.InUse l' s index m :=
  ⟨h.method, h.active, h.reached.mono hl, h.job.imp_left (·.mono hl)⟩

theorem Stands.mono (h : u.Stands l s) (hl : l.Grows l') : u.Stands l' s := by
  cases h with
  | unchosen config idle => exact .unchosen config idle
  | idle config idle => exact .idle config idle
  | active config h => exact .active config (h.mono hl)

/-- To give up a job says nothing about methods. -/
theorem Stands.congr (h : u.Stands l s) (hconfig : s'.config = s.config)
    (hmethod : s'.activeMethod = s.activeMethod)
    (hjob : s'.activeJob = s.activeJob ∨ s'.activeJob = none) : u.Stands l s' := by
  cases h with
  | unchosen config idle => exact .unchosen (hconfig.trans config) (hmethod.trans idle)
  | idle config idle => exact .idle (hconfig.trans config) (hmethod.trans idle)
  | active config h =>
      refine .active (hconfig.trans config) ⟨h.method, hmethod.trans h.active, h.reached, ?_⟩
      refine h.job.imp_right fun ⟨hm, hnone⟩ => ⟨hm, ?_⟩
      exact hjob.elim (·.trans hnone) id

end Mono

/-! ### The ledger -/

/-- How a mandate begins: the configuration is the one for the node, the names of its jobs
differ, and there is nothing but a new request. -/
structure Outset (l : Ledger) : Prop where
  sound : l.registry.Sound
  selected : l.registry.snapshot.select none u.request.target (l.labels u.request.target) =
    .ok u.config
  distinct : (u.config.methods.map fun m => u.request.jobName m.name).Nodup
  revisions : l.revisions = [u.request]
  new : u.request.status = none
  unused : ∀ j ∈ l.jobs, u.Alien j

/-- A ledger on which all is in order since a start. -/
structure Orderly (start l : Ledger) : Prop where
  registry : l.registry = start.registry
  labels : l.labels = start.labels
  kin : ∀ r ∈ l.revisions, u.request.Kin r
  stands : ∀ r ∈ l.revisions, u.Stands l (r.status.getD {})
  placed : ∀ j ∈ l.jobs, u.Alien j ∨ ∃ index m, u.Dispatched l index m j
  single : ∀ m ∈ u.config.methods,
    (l.jobs.map (·.metadata.name)).count (some (u.request.jobName m.name)) ≤ 1

/-- A job may be created if it is the one of a method that is reached. -/
def MayCreate (l : Ledger) (job : Job) : Prop :=
  ∃ index m, u.config.methods[index]? = some m ∧ u.Reached l index ∧
    m.buildJob u.config u.request u.settings.dispatch.build = .ok job

section Ledger

variable {u : Mandate} {start l l' : Ledger} {m : Method} {index : Nat} {j : Job}

namespace Outset

variable (h : u.Outset start)
include h

theorem config_mem : u.config ∈ start.registry.snapshot :=
  Snapshot.mem_of_select h.selected

theorem usable : u.config.fault? = none :=
  h.sound.fault? h.config_mem

/-- The name of a job tells the place of its method. -/
theorem index_of_jobName {i k : Nat} {m m' : Method} (hm : u.config.methods[i]? = some m)
    (hm' : u.config.methods[k]? = some m')
    (hname : u.request.jobName m.name = u.request.jobName m'.name) : i = k ∧ m = m' := by
  have hsame : m = m' := List.inj_on_of_nodup_map h.distinct (List.mem_of_getElem? hm)
    (List.mem_of_getElem? hm') hname
  subst hsame
  exact ⟨(Config.index_of_labelValue h.usable hm hm' rfl).1, rfl⟩

theorem orderly : u.Orderly start start where
  registry := rfl
  labels := rfl
  kin r hr := by
    obtain rfl : r = u.request := by simpa [h.revisions] using hr
    exact .refl _
  stands r hr := by
    obtain rfl : r = u.request := by simpa [h.revisions] using hr
    exact .unchosen (by simp [h.new]) (by simp [h.new])
  placed j hj := .inl (h.unused j hj)
  single m hm := by
    have absent : some (u.request.jobName m.name) ∉ start.jobs.map (·.metadata.name) := by
      intro hmem
      obtain ⟨j, hj, hname⟩ := List.mem_map.mp hmem
      exact (h.unused j hj).name m hm hname
    rw [List.count_eq_zero_of_not_mem absent]
    exact Nat.zero_le 1

end Outset

namespace Orderly

/-- A job of the name of a method is its job. -/
theorem dispatched_of_name (h : u.Orderly start l) (hu : u.Outset start)
    (hm : u.config.methods[index]? = some m) (hj : j ∈ l.jobs)
    (hname : j.metadata.name = some (u.request.jobName m.name)) : u.Dispatched l index m j := by
  rcases h.placed j hj with halien | ⟨k, m', hdone⟩
  · exact absurd hname (halien.name m (List.mem_of_getElem? hm))
  · have hsame := Option.some.inj (hdone.carries.name.symm.trans hname)
    obtain ⟨rfl, rfl⟩ := hu.index_of_jobName hdone.method hm hsame
    exact hdone

/-- A job with the labels of a method is its job. -/
theorem dispatched_of_isFor (h : u.Orderly start l) (hu : u.Outset start)
    (hm : u.config.methods[index]? = some m) (hj : j ∈ l.jobs)
    (hfor : j.isFor u.request.name m.name = true) : u.Dispatched l index m j := by
  rcases h.placed j hj with halien | ⟨k, m', hdone⟩
  · exact absurd (Job.isFor_iff.mp hfor).1 halien.label
  · have hsame := hdone.carries.labelValue_eq hfor
    obtain ⟨rfl, rfl⟩ := Config.index_of_labelValue hu.usable hdone.method hm hsame
    exact hdone

/-- Jobs of which all have the name of a method are one at most. -/
theorem length_filter_le (h : u.Orderly start l) (hm : m ∈ u.config.methods) {p : Job → Bool}
    (hp : ∀ j ∈ l.jobs, p j = true → j.metadata.name = some (u.request.jobName m.name)) :
    (l.jobs.filter p).length ≤ 1 := by
  refine Nat.le_trans ?_ (h.single m hm)
  rw [← List.countP_eq_length_filter, List.count_eq_countP, List.countP_map]
  exact List.countP_mono_left fun j hj hpj => by simpa using hp j hj hpj

/-- A method has one job at most. -/
theorem length_isFor_le (h : u.Orderly start l) (hu : u.Outset start)
    (hm : u.config.methods[index]? = some m) :
    (l.jobs.filter (·.isFor u.request.name m.name)).length ≤ 1 :=
  h.length_filter_le (List.mem_of_getElem? hm) fun _ hj hfor =>
    (h.dispatched_of_isFor hu hm hj hfor).carries.name

/-! ### Steps -/

/-- Another revision of the request may be stored if its status stands. -/
theorem add (h : u.Orderly start l) {r : Request} (kin : u.request.Kin r)
    (stands : u.Stands l (r.status.getD {})) : u.Orderly start (l.add r) := by
  have grows : l.Grows (l.add r) := .of_subset fun _ hj => hj
  refine ⟨h.registry, h.labels, fun r' hr' => ?_, fun r' hr' => ?_, fun j hj => ?_, h.single⟩
  · rcases List.mem_append.mp hr' with hold | hnew
    · exact h.kin r' hold
    · exact List.mem_singleton.mp hnew ▸ kin
  · rcases List.mem_append.mp hr' with hold | hnew
    · exact (h.stands r' hold).mono grows
    · exact List.mem_singleton.mp hnew ▸ stands.mono grows
  · exact (h.placed j hj).imp_right fun ⟨index, m, hdone⟩ => ⟨index, m, hdone.mono grows (.refl j)⟩

/-- The job of a method that is reached may be created. -/
theorem create (h : u.Orderly start l) {job : Job} (hmay : u.MayCreate l job)
    (free : ¬ l.Holds job.metadata.name) :
    u.Orderly start { l with jobs := l.jobs ++ [job] } := by
  obtain ⟨index, m, hm, hreached, hbuild⟩ := hmay
  have grows : l.Grows { l with jobs := l.jobs ++ [job] } :=
    .of_subset (List.subset_append_left _ _)
  have carries := (Method.buildJob_ok hbuild).1
  refine ⟨h.registry, h.labels, h.kin, fun r hr => (h.stands r hr).mono grows, ?_, ?_⟩
  · intro j hj
    rcases List.mem_append.mp hj with hold | hnew
    · exact (h.placed j hold).imp_right fun ⟨k, m', hdone⟩ => ⟨k, m', hdone.mono grows (.refl j)⟩
    · obtain rfl := List.mem_singleton.mp hnew
      refine .inr ⟨index, m, hm, carries, fun ⟨e, he⟩ => ?_, hreached.mono grows⟩
      exact nomatch hbuild.symm.trans he
  · intro m' hm'
    rw [List.map_append, List.count_append]
    by_cases hname : job.metadata.name = some (u.request.jobName m'.name)
    · -- It is the first of its name, or it would not have been created.
      have absent : some (u.request.jobName m'.name) ∉ l.jobs.map (·.metadata.name) := by
        intro hmem
        obtain ⟨j, hj, hj'⟩ := List.mem_map.mp hmem
        exact free ⟨j, hj, hj'.trans hname.symm⟩
      simp [List.count_eq_zero_of_not_mem absent, hname]
    · have hsingle := h.single m' hm'
      simpa [List.count_singleton, hname] using hsingle

/-- **One call** that creates and writes only what is permitted. -/
theorem serves (h : u.Orderly start l) {c : RequestCall} {a : c.Answer}
    (hcreate : ∀ {job}, c = .createJob job → u.MayCreate l job)
    (hwrite : ∀ {request revision s}, c = .patchStatus request revision s → u.Stands l s)
    (hs : l.Serves c a l') : l.Grows l' ∧ l.revisions ⊆ l'.revisions ∧ u.Orderly start l' := by
  cases hs.step with
  | still => exact ⟨.of_subset fun _ hj => hj, fun _ hr => hr, h⟩
  | created call free =>
      refine ⟨.of_subset (List.subset_append_left _ _), fun _ hr => hr, ?_⟩
      exact h.create (hcreate call) free
  | @written request revision s r new call latest same fresh =>
      refine ⟨.of_subset fun _ hj => hj, List.subset_append_left _ _, ?_⟩
      have hkin := h.kin r (Ledger.mem_of_latest? latest)
      exact h.add ⟨hkin.name, hkin.uid, hkin.inNamespace, hkin.target, hkin.operation⟩ (hwrite call)

/-- **One change** by others. -/
theorem ages (h : u.Orderly start l) (ha : l.Ages l') :
    l.Grows l' ∧ l.revisions ⊆ l'.revisions ∧ u.Orderly start l' := by
  cases ha with
  | @jobs jobs hages =>
      have grows : l.Grows { l with jobs } := Job.Ages.exists_later hages
      refine ⟨grows, fun _ hr => hr, h.registry, h.labels, h.kin,
        fun r hr => (h.stands r hr).mono grows, fun j' hj' => ?_, fun m hm => ?_⟩
      · obtain ⟨j, hj, hage⟩ := Job.Ages.exists_earlier hages j' hj'
        refine (h.placed j hj).imp (·.ages hage) fun ⟨index, m, hdone⟩ => ?_
        exact ⟨index, m, hdone.mono grows hage⟩
      · exact Job.Ages.map_name hages ▸ h.single m hm
  | edited latest kin same =>
      have hmem := Ledger.mem_of_latest? latest
      refine ⟨.of_subset fun _ hj => hj, List.subset_append_left _ _, ?_⟩
      exact h.add ((h.kin _ hmem).trans kin) (same ▸ h.stands _ hmem)

/-! ### What is seen of the jobs -/

/-- What is found for a method that has a job is this job. -/
theorem filter_isFor_eq (h : u.Orderly start l) (hu : u.Outset start) (hj : j ∈ l.jobs)
    (hdone : u.Dispatched l index m j) :
    l.jobs.filter (·.isFor u.request.name m.name) = [j] := by
  have hmem : j ∈ l.jobs.filter (·.isFor u.request.name m.name) :=
    List.mem_filter.mpr ⟨hj, hdone.carries.isFor⟩
  have hle := h.length_isFor_le hu hdone.method
  obtain ⟨j', hj'⟩ := List.length_eq_one_iff.mp
    (Nat.le_antisymm hle (List.length_pos_of_mem hmem))
  rw [hj'] at hmem ⊢
  rw [List.mem_singleton.mp hmem]

/-- What is seen of the method in use: its one job, or that it has none. -/
theorem jobs_of_inUse (h : u.Orderly start l) (hu : u.Outset start) {s : Status}
    (huse : u.InUse l s index m) :
    (∃ j, l.jobs.filter (·.isFor u.request.name m.name) = [j] ∧ u.Dispatched l index m j) ∨
      l.jobs.filter (·.isFor u.request.name m.name) = [] ∧ u.Unbuildable m ∧
        s.activeJob = none := by
  rcases huse.job with ⟨j, hj, hname⟩ | ⟨hm, hnone⟩
  · have hdone := h.dispatched_of_name hu huse.method hj hname
    exact .inl ⟨j, h.filter_isFor_eq hu hj hdone, hdone⟩
  · refine .inr ⟨List.eq_nil_iff_forall_not_mem.mpr fun j hj => ?_, hm, hnone⟩
    obtain ⟨hj, hfor⟩ := List.mem_filter.mp hj
    exact (h.dispatched_of_isFor hu huse.method hj hfor).buildable hm

end Orderly

end Ledger

end Mandate

end NodeFencing
