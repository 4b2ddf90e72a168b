import NodeFencing.Proofs.Reconcile.Guide
import NodeFencing.Proofs.Reconcile.Mandate

/-!
# One method at a time

However often copies of a request are worked on, whatever their age, and although calls
fail with and without an effect, its methods are used one at a time and in their order:
each has one job at most, and none has a job before those in front of it are done with.

The jobs themselves are the record on which this rests, not the status.  A copy may be
old, but what it says of the methods in front of the one in use was true when it was
written, and is still true.  A job that is created once more is the one that exists, for
its name is the same.

## Main Definitions

* `Mandate.Seen` — what a pass knows once it has looked at the jobs
* `orderContract` — the promises under which the order is kept
* `Mandate.OneAtATime` — what is promised of the jobs

## Main statements

* `Mandate.Seen.reached` — the method that is put in use next is reached
* `orderGuide` — passes keep the contract
* `Mandate.one_method_at_a_time` — what is promised holds in every state of a run
-/

namespace NodeFencing

namespace Mandate

section Status

variable {u : Mandate} {start l l' : Ledger} {m : Method} {index : Nat} {s : Status}
  {state : JobState}

/-! ### The status during a pass -/

/-- What is known of a status once the jobs are looked at: a method in use whose jobs let it pass
is done with. -/
structure Seen (u : Mandate) (l : Ledger) (s : Status) (state : JobState) : Prop where
  stands : u.Stands l s
  passed : ∀ {index : Nat} {m : Method}, u.config.methods[index]? = some m →
    s.activeMethod = some m.name → state.passes m → u.Passed l m

theorem Seen.mono (h : u.Seen l s state) (hl : l.Grows l') : u.Seen l' s state :=
  ⟨h.stands.mono hl, fun hm hactive hpasses => (h.passed hm hactive hpasses).mono hl⟩

/-- Without a method in use nothing is done with. -/
theorem Stands.seen_idle (h : u.Stands l s) (idle : s.activeMethod = none) :
    u.Seen l s .missing :=
  ⟨h, fun _ hactive => nomatch idle.symm.trans hactive⟩

/-- To look at the jobs of the method in use tells whether it is done with. -/
theorem Stands.seen_jobs (h : u.Stands l s) (hl : u.Orderly start l) (hu : u.Outset start)
    {method : String} (hmethod : s.activeMethod = some method) (t : Instant) :
    u.Seen l (s.observing method (l.jobs.filter (·.isFor u.request.name method)) t)
      (methodState (l.jobs.filter (·.isFor u.request.name method))) := by
  cases h with
  | unchosen _ idle => exact nomatch hmethod.symm.trans idle
  | idle _ idle => exact nomatch hmethod.symm.trans idle
  | @active index m config huse =>
      obtain rfl : method = m.name := Option.some.inj (hmethod.symm.trans huse.active)
      have unique {k : Nat} {m' : Method} (hm' : u.config.methods[k]? = some m')
          (hname : some m.name = some m'.name) : m' = m :=
        (Config.index_of_labelValue hu.usable hm' huse.method
          (by rw [Option.some.inj hname])).2
      rcases hl.jobs_of_inUse hu huse with ⟨j, hjobs, hdone⟩ | ⟨hjobs, hm, hnone⟩
      · -- What is seen of the jobs is the state of the one job of the method.
        rw [hjobs, methodState_singleton]
        have hj : j ∈ l.jobs := (List.mem_filter.mp (hjobs ▸ List.mem_singleton_self j)).1
        have hactive := (s.activeMethod_observing m.name [j] t).trans huse.active
        refine ⟨.active ((s.config_observing _ _ _).trans config)
          ⟨huse.method, hactive, huse.reached, ?_⟩, ?_⟩
        · exact .inl ⟨j, hj, hdone.carries.name⟩
        · intro k m' hm' hm hpasses
          obtain rfl := unique hm' (hactive.symm.trans hm)
          refine .inr ⟨j, hj, hdone.carries.isFor, ?_⟩
          rcases hpasses with hfailed | hmissing | hsucceeded
          · exact .inl hfailed
          · exact absurd hmissing j.state_ne_missing
          · exact .inr hsucceeded
      · -- There is nothing to be seen of a method for which no job can be made.
        have hobserving : s.observing m.name [] t = s := by
          simp [Status.observing, hnone, methodState]
        rw [hjobs, hobserving]
        refine ⟨.active config huse, fun hm' hactive _ => .inl ?_⟩
        obtain rfl := unique hm' (huse.active.symm.trans hactive)
        exact hm

/-- The method that is put in use next is reached. -/
theorem Seen.reached (h : u.Seen l s state) (hu : u.config.fault? = none) {elapsed : Duration}
    (hnext : u.config.nextStep s.activeMethod state elapsed = .dispatch index m) :
    u.config.methods[index]? = some m ∧ u.Reached l index := by
  obtain ⟨hm, ⟨-, rfl⟩ | ⟨k, m₀, hactive, rfl, hpasses⟩⟩ := Config.nextStep_dispatch hnext
  · exact ⟨hm, fun _ hk => absurd hk (Nat.not_lt_zero _)⟩
  · obtain ⟨name, hname, hmethod⟩ := Option.bind_eq_some_iff.mp hactive
    obtain ⟨hm₀, rfl⟩ := Config.method?_some hmethod
    cases h.stands with
    | unchosen _ idle => exact nomatch hname.symm.trans idle
    | idle _ idle => exact nomatch hname.symm.trans idle
    | @active k' m' _ huse =>
        have hsame : m'.name = m₀.name := Option.some.inj (huse.active.symm.trans hname)
        obtain ⟨rfl, rfl⟩ := Config.index_of_labelValue hu huse.method hm₀ (by rw [hsame])
        exact ⟨hm, huse.reached.succ huse.method (h.passed huse.method huse.active hpasses)⟩

/-- The configuration of the mandate is chosen, and chosen again. -/
theorem Stands.select_eq (h : u.Stands l s) (hu : u.Outset start) :
    start.registry.snapshot.select s.config u.request.target (start.labels u.request.target) =
      .ok u.config := by
  have again : start.registry.snapshot.select (some u.config.name) u.request.target
      (start.labels u.request.target) = .ok u.config :=
    Snapshot.select_chosen (hu.sound.get?_name hu.config_mem)
  cases h with
  | unchosen config => exact config ▸ hu.selected
  | idle config => exact config ▸ again
  | active config => exact config ▸ again

/-- A status once the configuration is noted. -/
theorem Stands.choosing (h : u.Stands l s) (t : Instant) :
    u.Stands l (s.choosing u.config t) ∧ (s.choosing u.config t).config = some u.config.name := by
  unfold Status.choosing
  split
  · next config => exact ⟨h, config⟩
  · next hne =>
      cases h with
      | unchosen config idle => exact ⟨.idle rfl (by simpa [config, Status.record] using idle), rfl⟩
      | idle config => exact absurd config hne
      | active config => exact absurd config hne

/-- A method that is reached may be put in use. -/
theorem Reached.stands (h : u.Reached l index) (hm : u.config.methods[index]? = some m)
    (config : s.config = some u.config.name) (active : s.activeMethod = some m.name)
    (hjob : l.Holds (some (u.request.jobName m.name)) ∨ u.Unbuildable m ∧ s.activeJob = none) :
    u.Stands l s :=
  .active config ⟨hm, active, h, hjob⟩

end Status

end Mandate

/-! ### The contract -/

/-- Under this contract a job is created only for a method that is reached, and a status is written
only as it stands. -/
def orderContract (u : Mandate) (start : Ledger) : Contract RequestStore Ledger where
  holds := u.Orderly start
  evolves l l' := l.Grows l'
  permits l
    | .createJob job => u.MayCreate l job
    | .patchStatus _ _ s => u.Stands l s
    | _ => True
  reports := Ledger.Tells
  evolves_refl _ := .of_subset fun _ hj => hj
  evolves_trans := Ledger.Grows.trans
  permits_mono {l l' c} hl h := by
    cases c with
    | createJob job =>
        obtain ⟨index, m, hm, hreached, hbuild⟩ := h
        exact ⟨index, m, hm, hreached.mono hl, hbuild⟩
    | patchStatus => exact Mandate.Stands.mono h hl
    | _ => trivial

section Guide

variable {u : Mandate} {start l l' : Ledger}

/-- What is found for the request is the configuration of the mandate. -/
theorem orderContract_finds (hu : u.Outset start) {r : Request} {found : Except FencingError Config}
    (kin : u.request.Kin r) (stands : u.Stands l' (r.status.getD {}))
    (h : (orderContract u start).Finds l l' r found) : found = .ok u.config := by
  obtain ⟨labels, snapshot, ⟨v, hv, hlabels, -⟩, ⟨v', hv', hconfigs, -⟩, hselect⟩ := h
  obtain rfl : labels = v.labels r.target := hlabels labels rfl
  obtain rfl : snapshot = v'.registry.snapshot := hconfigs
  rw [← hselect, hv.holds.labels, hv'.holds.registry, kin.target]
  exact stands.select_eq hu

/-- Passes keep the contract, from whichever revision they start. -/
def orderGuide (hu : u.Outset start) : Guide (orderContract u start) u.settings where
  knows l r := u.Orderly start l ∧ u.request.Kin r ∧ u.Stands l (r.status.getD {})
  chosen r c l s := u.Orderly start l ∧ u.request.Kin r ∧ c = u.config ∧ u.Stands l s ∧
    s.config = some u.config.name
  seen r c l s state := u.request.Kin r ∧ c = u.config ∧ u.Seen l s state ∧
    s.config = some u.config.name
  knows_mono := fun hlead ⟨_, kin, stands⟩ => ⟨hlead.holds, kin, stands.mono hlead.evolves⟩
  chosen_mono := fun hlead ⟨_, kin, hc, stands, config⟩ =>
    ⟨hlead.holds, kin, hc, stands.mono hlead.evolves, config⟩
  seen_mono := fun hlead ⟨kin, hc, hseen, config⟩ => ⟨kin, hc, hseen.mono hlead.evolves, config⟩
  reads c hc := by
    cases c with
    | createJob => cases hc
    | patchStatus => cases hc
    | _ => trivial
  latest hl hrep := by
    have hmem := Ledger.mem_of_latest? (hrep _ rfl)
    exact ⟨hl, hl.kin _ hmem, hl.stands _ hmem⟩
  rejects := fun ⟨_, kin, stands⟩ _ hfinds => nomatch orderContract_finds hu kin stands hfinds
  chooses := fun ⟨hl, kin, stands⟩ _ hfinds => by
    obtain rfl := Except.ok.inj (orderContract_finds hu kin stands hfinds)
    obtain ⟨hstands, config⟩ := stands.choosing _
    exact ⟨hl, kin, rfl, hstands, config⟩
  idle := fun ⟨_, kin, hc, stands, config⟩ idle => ⟨kin, hc, stands.seen_idle idle, config⟩
  looks := fun {l r c s method jobs t} ⟨hl, kin, hc, stands, config⟩ hmethod hrep => by
    have hjobs : jobs = l.jobs.filter (·.isFor r.name method) := hrep jobs rfl
    rw [kin.name] at hjobs
    subst hjobs
    exact ⟨kin, hc, stands.seen_jobs hl hu hmethod t,
      (s.config_observing _ _ _).trans config⟩
  keeps := fun ⟨_, _, hseen, _⟩ => hseen.stands
  completes := fun ⟨_, _, hseen, _⟩ _ => hseen.stands.congr rfl rfl (.inr rfl)
  exhausts := fun ⟨_, _, hseen, _⟩ _ => hseen.stands.congr rfl rfl (.inr rfl)
  aborts := fun ⟨kin, hc, hseen, config⟩ hnext hbuild => by
    subst hc
    obtain ⟨hm, hreached⟩ := hseen.reached hu.usable hnext
    exact hreached.stands hm config rfl (.inr ⟨⟨_, kin.buildJob _ _ _ ▸ hbuild⟩, rfl⟩)
  creates := fun ⟨kin, hc, hseen, _⟩ hnext hbuild => by
    subst hc
    obtain ⟨hm, hreached⟩ := hseen.reached hu.usable hnext
    exact ⟨_, _, hm, hreached, kin.buildJob _ _ _ ▸ hbuild⟩
  dispatches := fun ⟨kin, hc, hseen, config⟩ hnext hbuild htold hcreated => by
    subst hc
    obtain ⟨hm, hreached⟩ := hseen.reached hu.usable hnext
    obtain ⟨v, -, hrep, hlead⟩ := htold
    have hname := (Method.buildJob_ok hbuild).1.name
    have hholds := (hrep hcreated).mono hlead.evolves
    rw [hname, kin.jobName] at hholds
    exact hreached.stands hm config rfl (.inl hholds)

/-- A ledger keeps its side of the contract. -/
theorem orderContract_binds (hu : u.Outset start) :
    (orderContract u start).Binds (fun _ _ => True)
      (Ledger.rules (· = u.settings) Ledger.Ages) where
  stable _ _ _ _ _ := trivial
  begins hl h := by
    obtain ⟨_, r, now, rfl, hr, rfl⟩ := h
    exact (orderGuide hu).reconcile hl ⟨hl, hl.kin r hr, hl.stands r hr⟩
  answers hl hpermit hs := by
    obtain ⟨hgrows, -, hl'⟩ := hl.serves (fun hc => by subst hc; exact hpermit)
      (fun hc => by subst hc; exact hpermit) hs
    exact ⟨⟨hgrows, hl'⟩, hs.tells⟩
  changes hl h := by
    obtain ⟨hgrows, -, hl'⟩ := hl.ages h
    exact ⟨hgrows, hl'⟩
  shows _ := trivial

end Guide

/-! ### Runs -/

namespace Mandate

/-- What is promised of the jobs. -/
structure OneAtATime (u : Mandate) (l : Ledger) : Prop where
  /-- Each method has one job at most. -/
  single : ∀ m ∈ u.config.methods, (l.jobs.filter (·.isFor u.request.name m.name)).length ≤ 1
  /-- A method has a job only when those in front of it are done with. -/
  ordered : ∀ {index : Nat} {m : Method}, u.config.methods[index]? = some m →
    (∃ j ∈ l.jobs, j.isFor u.request.name m.name = true) → u.Reached l index
  /-- One job of the request runs at most. -/
  running : (l.jobs.filter fun j => decide (u.Own j) && j.state == .running).length ≤ 1

variable {u : Mandate} {start l : Ledger}

/-- Where all is in order, a job that runs belongs to the last method that has one. -/
theorem Orderly.index_le (h : u.Orderly start l) (hu : u.Outset start) {i k : Nat} {m m' : Method}
    {j j' : Job} (hj : j ∈ l.jobs) (hdone : u.Dispatched l i m j) (hrunning : j.state = .running)
    (hdone' : u.Dispatched l k m' j') : k ≤ i := by
  by_contra hlt
  -- The method of the job that runs stands in front of the other one, so it is done with.
  obtain ⟨m₀, hm₀, hpassed⟩ := hdone'.reached i (Nat.lt_of_not_le hlt)
  obtain rfl : m = m₀ := Option.some.inj (hdone.method.symm.trans hm₀)
  rcases hpassed with hm | ⟨j₀, hj₀, hfor, hstate⟩
  · exact hdone.buildable hm
  · have hmem : j₀ ∈ l.jobs.filter (·.isFor u.request.name m.name) :=
      List.mem_filter.mpr ⟨hj₀, hfor⟩
    rw [h.filter_isFor_eq hu hj hdone] at hmem
    obtain rfl := List.mem_singleton.mp hmem
    rcases hstate with hfailed | ⟨hsucceeded, -⟩
    · exact nomatch hrunning.symm.trans hfailed
    · exact nomatch hrunning.symm.trans hsucceeded

theorem Orderly.oneAtATime (h : u.Orderly start l) (hu : u.Outset start) : u.OneAtATime l where
  single m hm := by
    obtain ⟨index, hindex⟩ := List.getElem?_of_mem hm
    exact h.length_isFor_le hu hindex
  ordered hm := fun ⟨j, hj, hfor⟩ => (h.dispatched_of_isFor hu hm hj hfor).reached
  running := by
    have placed (j : Job) (hj : j ∈ l.jobs) (hown : u.Own j) :
        ∃ index m, u.Dispatched l index m j :=
      (h.placed j hj).resolve_left fun halien => halien.label hown
    by_cases hrun : ∃ j ∈ l.jobs, u.Own j ∧ j.state = .running
    · obtain ⟨j, hj, hown, hrunning⟩ := hrun
      obtain ⟨i, m, hdone⟩ := placed j hj hown
      refine h.length_filter_le (List.mem_of_getElem? hdone.method) fun j' hj' hp => ?_
      simp only [Bool.and_eq_true, decide_eq_true_eq, beq_iff_eq] at hp
      obtain ⟨k, m', hdone'⟩ := placed j' hj' hp.1
      obtain rfl : i = k := Nat.le_antisymm (h.index_le hu hj' hdone' hp.2 hdone)
        (h.index_le hu hj hdone hrunning hdone')
      obtain rfl := Option.some.inj (hdone.method.symm.trans hdone'.method)
      exact hdone'.carries.name
    · rw [List.filter_eq_nil_iff.mpr fun j hj hp => hrun ⟨j, hj, by simpa using hp⟩]
      exact Nat.zero_le 1

/-- **One method at a time.**  Copies of any revision are worked on side by side, in any number and
at any time, while the jobs run; then the jobs are as promised. -/
theorem one_method_at_a_time {t : Traffic RequestStore (Except TaskError Outcome) Ledger}
    (hu : u.Outset start)
    (hrun : Traffic.Run (Ledger.rules (· = u.settings) Ledger.Ages) (.quiet start) t) :
    u.OneAtATime t.site := by
  have quiet : Traffic.Orderly (orderContract u start) (fun _ _ => True)
      (Traffic.quiet start : Traffic RequestStore (Except TaskError Outcome) Ledger) :=
    .quiet hu.orderly
  exact (quiet.run (orderContract_binds hu) hrun).2.holds.oneAtATime hu

/-- A request with two methods, each of which runs one command. -/
def twoMethods : Mandate where
  request := {
    metadata := { name := some "fence-node-1", uid := some "0f1e", resourceVersion := some "1" }
    target := "node-1" }
  config := {
    name := "racks"
    methods := [
      { name := "power", mechanisms := [{ command := some ["off"] }] },
      { name := "storage", mechanisms := [{ command := some ["cut"] }] }] }
  settings := {}

/-- The ledger on which it begins. -/
def twoMethodsStart : Ledger where
  registry := Registry.insert {} twoMethods.config
  revisions := [twoMethods.request]

theorem twoMethods_outset : twoMethods.Outset twoMethodsStart where
  sound := Registry.sound_empty.insert (by decide)
  selected := rfl
  distinct := by decide
  revisions := rfl
  new := rfl
  unused := by simp [twoMethodsStart]

/-- The first method fails, and the second one is put in use. -/
theorem one_method_at_a_time_twoMethods :
    ∃ t : Traffic RequestStore (Except TaskError Outcome) Ledger,
      Traffic.Run (Ledger.rules (· = twoMethods.settings) Ledger.Ages) (.quiet twoMethodsStart) t ∧
      t.site.jobs.map Job.state = [.failed, .running] ∧ twoMethods.OneAtATime t.site := by
  have begins {l : Ledger} {r : Request} (hr : r ∈ l.revisions) :
      (Ledger.rules (· = twoMethods.settings) Ledger.Ages).begins l
        (reconcile {} r ⟨0, 0⟩).run :=
    ⟨{}, r, ⟨0, 0⟩, rfl, hr, rfl⟩
  have shown (l : Ledger) : (Ledger.rules (· = twoMethods.settings) Ledger.Ages).shows l
      ⟨0, 0⟩ := trivial
  have free (job : Job) : ¬ twoMethodsStart.Holds job.metadata.name := by
    simp [Ledger.Holds, twoMethodsStart]
  have fresh (jobs : List Job) : Ledger.Fresh { twoMethodsStart with jobs } (some "2") :=
    ⟨rfl, by simp [twoMethodsStart, twoMethods]⟩
  have nothing : Traffic.Run (Ledger.rules (· = twoMethods.settings) Ledger.Ages)
      (.quiet twoMethodsStart) (.quiet twoMethodsStart) := .refl
  -- The first pass creates the job of the first method.
  obtain ⟨⟨l₁, running₁⟩, hrun₁, rfl, rfl⟩ := nothing.begins 0 rfl
    (begins (List.mem_singleton_self _)) <|
    .head (.call (.effect .nodeLabels)) <| .head (.call (.effect .configs)) <|
    .head (.clock (shown _)) <| .head (.clock (shown _)) <|
    .head (.call (.effect (.created (free _)))) <| .head (.clock (shown _)) <|
    .single (.call (.effect (.landed rfl (.inr rfl) (fresh _))))
  have fails {l : Ledger} {j : Job} (hl : l.jobs = [j]) (hj : j.status = none) :
      l.Ages { l with jobs := [{ j with status := some { failed := some 1 } }] } := by
    refine .jobs (hl ▸ .cons ⟨rfl, rfl, ?_, ?_⟩ .nil)
    · simp [Job.state, hj]
    · simp [Job.state, hj]
  have other {l : Ledger} {j job : Job} (hl : l.jobs = [j])
      (hne : j.metadata.name ≠ job.metadata.name) : ¬ l.Holds job.metadata.name := by
    simpa [Ledger.Holds, hl] using hne
  have hrun₂ := hrun₁.tail (.change (fails rfl rfl))
  -- Once this job has failed, the second pass creates the one of the second method.
  obtain ⟨t, hrun, hsite, -⟩ := Traffic.Run.begins 1 hrun₂ rfl
    (begins (List.mem_cons_of_mem _ (List.mem_singleton_self _))) <|
    .head (.call (.effect .nodeLabels)) <| .head (.call (.effect .configs)) <|
    .head (.call (.effect .methodJobs)) <|
    .head (.clock (shown _)) <| .head (.clock (shown _)) <|
    .single (.call (.effect (.created (other rfl (by decide)))))
  exact ⟨t, hrun, by rw [hsite]; rfl, one_method_at_a_time twoMethods_outset hrun⟩

end Mandate

end NodeFencing
