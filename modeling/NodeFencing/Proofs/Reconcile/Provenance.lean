import NodeFencing.Proofs.Reconcile.Entry
import NodeFencing.Proofs.Reconcile.History
import NodeFencing.Proofs.Reconcile.Order

/-!
# From which configuration a job comes

The configuration of a request may go away while it is carried out, and another one takes
its place.  The methods then start anew.  But the name of a job is made of the request and
the method only.  If the other configuration has a method whose job has the same name, the
job that is there already is taken for this method's, and the log says that it was
dispatched, although it carries out the other definition.

This happens just where two configurations that may both come to be chosen give their jobs
the same name.

## Main Definitions

* `Regime` — a request with what may be around it
* `Regime.Apart` — jobs of the same name come from configurations of the same label
* `Regime.Changes` — what happens to the configurations and jobs by themselves
* `Ledger.Faithful` — whatever is newly said to be dispatched has a job of the configuration
* `provenanceContract` — the promises by which it can be told where a job comes from

## Main statements

* `provenanceGuide` — passes keep the contract
* `Regime.Kept.faithful` — where configurations are apart, the log is faithful
-/

namespace NodeFencing

/-! ### Regimes -/

/-- A request with what may be around it: the settings, the labels of its node, and the
configurations that may come into the registry. -/
structure Regime where
  request : Request
  settings : Settings
  labels : StringMap String
  admits : Config → Prop
  usable : ∀ {c}, admits c → c.fault? = none

namespace Regime

variable (k : Regime)

/-- The name of a configuration that may come to be chosen for the node. -/
def Known (name : String) : Prop :=
  ∃ c, k.admits c ∧ c.name = name ∧ c.selects k.labels = true

/-- A method for which a job may come to be created.  The configuration need not be for the node
itself, for one that was chosen stays so when it is replaced by another one of its name. -/
structure Offers (c : Config) (m : Method) : Prop where
  admitted : k.admits c
  known : k.Known c.name
  method : m ∈ c.methods
  buildable : ∃ job, m.buildJob c k.request k.settings.dispatch.build = .ok job

/-- Jobs of the same name come from configurations of the same label. -/
def Apart : Prop :=
  ∀ {c m c' m'}, k.Offers c m → k.Offers c' m' →
    k.request.jobName m.name = k.request.jobName m'.name → labelValue c.name = labelValue c'.name

/-- A job whose name is not one of those that may come to be created. -/
def Foreign (j : Job) : Prop :=
  ∀ c m, k.Offers c m → j.metadata.name ≠ some (k.request.jobName m.name)

/-- A job that comes from one of the configurations. -/
def Own (j : Job) : Prop :=
  ∃ c m, k.Offers c m ∧ m.Carries c k.request j

/-- What happens to a ledger by itself: configurations come and go, jobs run, and the request may be
changed in anything that does not matter for its jobs. -/
inductive Changes (l : Ledger) : Ledger → Prop
  | upserted {c} (h : k.admits c) : Changes l { l with registry := l.registry.insert c }
  | removed (name) : Changes l { l with registry := l.registry.remove name }
  | resynced (names) : Changes l { l with registry := l.registry.resync names }
  | jobs {jobs} (h : List.Forall₂ Job.Ages l.jobs jobs) : Changes l { l with jobs }
  | edited {r r'} (latest : l.latest? = some r) (kin : r.Kin r') (same : r'.status = r.status)
      (fresh : l.Fresh r'.metadata.resourceVersion) : Changes l (l.add r')

/-- The request on a ledger, however far it has come, with its jobs and those of others. -/
structure Underway (l : Ledger) : Prop where
  revisions : ∃ r, l.revisions = [r] ∧ k.request.Kin r ∧ r.metadata.resourceVersion.isSome ∧
    ∀ name, (r.status.getD {}).config = some name → k.Known name
  registry : ∀ c ∈ l.registry.snapshot, k.admits c
  labels : l.labels k.request.target = k.labels
  jobs : ∀ j ∈ l.jobs, k.Foreign j ∨ k.Own j

end Regime

/-! ### Faithful logs -/

namespace Ledger

/-- A job of a name is there, and carries the label of the configuration that a status names. -/
def Shows (l : Ledger) (s : Status) (name : String) : Prop :=
  l.Holds (some name) ∧ ∃ config, s.config = some config ∧
    ∀ j ∈ l.jobs, j.metadata.name = some name →
      j.metadata.label? configLabel = some (labelValue config)

/-- Whatever is newly said to be dispatched has a job that comes from the configuration of the
request. -/
def Faithful (l : Ledger) : Prop :=
  ∀ r r', [r, r'] <:+: l.revisions → ∀ method name, Entry.dispatched method name ∈ r.news r' →
    l.Shows (r'.status.getD {}) name

/-- One revision behind another, when one is added to the latest. -/
theorem pair_infix_add {l : Ledger} {r r₁ r₂ r' : Request} (latest : l.latest? = some r)
    (h : [r₁, r₂] <:+: (l.add r').revisions) :
    [r₁, r₂] <:+: l.revisions ∨ r₁ = r ∧ r₂ = r' := by
  obtain ⟨past, hpast⟩ := exists_past latest
  rcases List.infix_concat_iff.mp h with ⟨front, hfront⟩ | hold
  · have reversed := congrArg List.reverse hfront
    rw [hpast] at reversed
    simp only [List.reverse_append, List.reverse_cons, List.reverse_nil, List.nil_append,
      List.cons_append, List.cons.injEq] at reversed
    exact .inr ⟨reversed.2.1, reversed.1⟩
  · exact .inl hold

end Ledger

/-! ### What is known of a ledger -/

namespace Regime

variable (k : Regime)

/-- A job of a name is there, as that of a method of the configuration that a status names. -/
def Backs (l : Ledger) (s : Status) (name : String) : Prop :=
  ∃ c m, k.Offers c m ∧ s.config = some c.name ∧ name = k.request.jobName m.name ∧
    l.Holds (some name)

/-- A ledger on which it can be told of every job where it comes from. -/
structure Kept (l : Ledger) : Prop where
  labels : l.labels k.request.target = k.labels
  registry : ∀ c ∈ l.registry.snapshot, k.admits c
  versioned : l.Versioned
  kin : ∀ r ∈ l.revisions, k.request.Kin r
  known : ∀ r ∈ l.revisions, ∀ name, (r.status.getD {}).config = some name → k.Known name
  jobs : ∀ j ∈ l.jobs, k.Foreign j ∨ k.Own j
  traced : ∀ r r', [r, r'] <:+: l.revisions → ∀ method name,
    Entry.dispatched method name ∈ r.news r' → k.Backs l (r'.status.getD {}) name

/-- What a pass may write over a revision: it names a configuration that may be chosen, and says
only of jobs that are there that they were dispatched. -/
structure Writes (l : Ledger) (r : Request) (s : Status) : Prop where
  stored : r ∈ l.revisions
  known : ∀ name, s.config = some name → k.Known name
  log : ∃ entries, s.log = r.log ++ entries ∧
    ∀ method name, Entry.dispatched method name ∈ entries → k.Backs l s name

/-- What a pass over a revision knows of the status in hand, before it dispatches a method. -/
structure InHand (l : Ledger) (r : Request) (c : Config) (s : Status) : Prop where
  stored : r ∈ l.revisions
  kin : k.request.Kin r
  admitted : k.admits c
  known : k.Known c.name
  config : s.config = some c.name
  log : ∃ entries, s.log = r.log ++ entries ∧ Silent entries

section Steps

variable {k : Regime} {l l' : Ledger} {r r' : Request} {c : Config} {m : Method} {s s' : Status}
  {j j' : Job} {name : String}

theorem Foreign.ages (h : k.Foreign j) (hage : j.Ages j') : k.Foreign j' :=
  fun c m hoffers hname => h c m hoffers (hage.name.symm.trans hname)

theorem Own.ages (h : k.Own j) (hage : j.Ages j') : k.Own j' := by
  obtain ⟨c, m, hoffers, hcarries⟩ := h
  exact ⟨c, m, hoffers, hcarries.congr hage.name hage.labels⟩

theorem Backs.mono (h : k.Backs l s name) (hl : l.Grows l') : k.Backs l' s name := by
  obtain ⟨c, m, hoffers, config, hname, hholds⟩ := h
  exact ⟨c, m, hoffers, config, hname, hholds.mono hl⟩

theorem Writes.mono (h : k.Writes l r s) (hl : l.Grows l')
    (hr : l.revisions <+: l'.revisions) : k.Writes l' r s := by
  obtain ⟨entries, hlog, hbacks⟩ := h.log
  exact ⟨hr.subset h.stored, h.known, entries, hlog, fun method name hmem =>
    (hbacks method name hmem).mono hl⟩

theorem InHand.mono (h : k.InHand l r c s) (hr : l.revisions <+: l'.revisions) :
    k.InHand l' r c s :=
  { h with stored := hr.subset h.stored }

/-- A status that says nothing of a dispatch may be written. -/
theorem InHand.writes (h : k.InHand l r c s) : k.Writes l r s := by
  obtain ⟨entries, hlog, hsilent⟩ := h.log
  refine ⟨h.stored, fun name hname => ?_, entries, hlog, fun method name hmem =>
    absurd hmem (hsilent method name)⟩
  obtain rfl : c.name = name := Option.some.inj (h.config.symm.trans hname)
  exact h.known

/-- Its log says nothing of a dispatch since the revision. -/
theorem InHand.silent (h : k.InHand l r c s) : s.SilentSince r :=
  h.log

/-- A status that names the same configuration, and says no more of a dispatch. -/
theorem InHand.congr (h : k.InHand l r c s) (config : s'.config = s.config)
    (silent : s'.SilentSince r) : k.InHand l r c s' :=
  { h with config := config.trans h.config, log := silent }

theorem InHand.choosing (hr : r ∈ l.revisions) (kin : k.request.Kin r) (admitted : k.admits c)
    (known : k.Known c.name) (t : Instant) : k.InHand l r c ((r.status.getD {}).choosing c t) :=
  ⟨hr, kin, admitted, known, Status.config_choosing _ _ _,
    Status.SilentSince.start.choosing c t⟩

theorem InHand.observing (h : k.InHand l r c s) (method : String) (jobs : List Job) (t : Instant) :
    k.InHand l r c (s.observing method jobs t) :=
  h.congr (s.config_observing method jobs t) (h.silent.observing method jobs t)

/-- To end the request. -/
theorem InHand.finalizes (h : k.InHand l r c s) {result : Result}
    (hresult : result ≠ .jobDispatched) (t : Instant) (detail : String) :
    k.Writes l r (s.finalize t result detail) := by
  have ended : k.InHand l r c (s.finalize t result detail) :=
    h.congr rfl (h.silent.finalizes hresult t detail none)
  exact ended.writes

/-- To dispatch a method. -/
theorem InHand.dispatches (h : k.InHand l r c s) (hoffers : k.Offers c m)
    (hholds : l.Holds (some (r.jobName m.name))) (t t' : Instant) :
    k.Writes l r ((s.selecting m.name t).dispatched m.name (r.jobName m.name) t') := by
  obtain ⟨entries, hlog, hsaid⟩ :=
    (h.silent.selecting m.name t).dispatched m.name (r.jobName m.name) t'
  refine ⟨h.stored, h.writes.known, entries, hlog, fun method name hmem => ?_⟩
  obtain rfl := hsaid method name hmem
  exact ⟨c, m, hoffers, h.config, h.kin.jobName m.name, hholds⟩

end Steps

/-! ### Steps of a ledger -/

section Ledger

variable {k : Regime} {l l' : Ledger} {r r' : Request} {s : Status} {job : Job}

/-- A ledger on which a request is under way. -/
theorem Underway.kept (h : k.Underway l) : k.Kept l := by
  obtain ⟨r, hr, kin, hversion, known⟩ := h.revisions
  refine ⟨h.labels, h.registry, .single hr hversion, ?_, ?_, h.jobs, fun r₁ r₂ hpair => ?_⟩
  · simpa [hr] using kin
  · simpa [hr] using known
  · have hle := hpair.length_le
    simp [hr] at hle

namespace Kept

/-- What may be written may be stored behind the latest revision. -/
theorem add (h : k.Kept l) (latest : l.latest? = some r) (kin : k.request.Kin r')
    (fresh : l.Fresh r'.metadata.resourceVersion)
    (known : ∀ name, (r'.status.getD {}).config = some name → k.Known name)
    (traced : ∀ method name, Entry.dispatched method name ∈ r.news r' →
      k.Backs l (r'.status.getD {}) name) : k.Kept (l.add r') := by
  have grows : l.Grows (l.add r') := .of_subset fun _ hj => hj
  refine ⟨h.labels, h.registry, h.versioned.add fresh, ?_, ?_, h.jobs, ?_⟩
  · intro r₀ hr₀
    rcases List.mem_append.mp hr₀ with hold | hnew
    · exact h.kin r₀ hold
    · exact List.mem_singleton.mp hnew ▸ kin
  · intro r₀ hr₀
    rcases List.mem_append.mp hr₀ with hold | hnew
    · exact h.known r₀ hold
    · exact List.mem_singleton.mp hnew ▸ known
  · intro r₁ r₂ hpair method name hmem
    rcases Ledger.pair_infix_add latest hpair with hold | ⟨rfl, rfl⟩
    · exact (h.traced r₁ r₂ hold method name hmem).mono grows
    · exact (traced method name hmem).mono grows

/-- **A write** over the revision from which a pass started. -/
theorem written (h : k.Kept l) {r₀ : Request} {revision : Option String}
    (latest : l.latest? = some r₀) (hs : k.Writes l r s)
    (same : r.metadata.resourceVersion = none ∨
      r.metadata.resourceVersion = r₀.metadata.resourceVersion)
    (fresh : l.Fresh revision) : k.Kept (l.add (r₀.written s revision)) := by
  obtain rfl := h.versioned.pinned latest hs.stored same
  obtain ⟨entries, hlog, hbacks⟩ := hs.log
  have kin := h.kin r hs.stored
  refine h.add latest ⟨kin.name, kin.uid, kin.inNamespace, kin.target, kin.operation⟩ fresh
    hs.known ?_
  rw [Request.news_written hlog]
  exact hbacks

/-- The jobs may be others as long as it can be told where they come from. -/
theorem withJobs (h : k.Kept l) {jobs : List Job} (grows : l.Grows { l with jobs })
    (placed : ∀ j ∈ jobs, k.Foreign j ∨ k.Own j) : k.Kept { l with jobs } :=
  ⟨h.labels, h.registry, h.versioned.congr rfl, h.kin, h.known, placed,
    fun r r' hpair method name hmem => (h.traced r r' hpair method name hmem).mono grows⟩

theorem withRegistry (h : k.Kept l) {registry : Registry}
    (hregistry : ∀ c ∈ registry.snapshot, k.admits c) : k.Kept { l with registry } :=
  ⟨h.labels, hregistry, h.versioned.congr rfl, h.kin, h.known, h.jobs,
    fun r r' hpair method name hmem =>
      (h.traced r r' hpair method name hmem).mono (.of_subset fun _ hj => hj)⟩

/-- **One call** that creates and writes only what is permitted. -/
theorem serves (h : k.Kept l) {c : RequestCall} {a : c.Answer}
    (hcreate : ∀ {job}, c = .createJob job → k.Own job)
    (hwrite : ∀ {request revision s}, c = .patchStatus request revision s →
      ∃ r, revision = r.metadata.resourceVersion ∧ k.Writes l r s)
    (hs : l.Serves c a l') : l.Grows l' ∧ l.revisions <+: l'.revisions ∧ k.Kept l' := by
  cases hs.step with
  | still => exact ⟨.of_subset fun _ hj => hj, List.prefix_rfl, h⟩
  | @created job call free =>
      have grows : l.Grows { l with jobs := l.jobs ++ [job] } :=
        .of_subset (List.subset_append_left _ _)
      refine ⟨grows, List.prefix_rfl, h.withJobs grows fun j hj => ?_⟩
      rcases List.mem_append.mp hj with hold | hnew
      · exact h.jobs j hold
      · exact .inr (List.mem_singleton.mp hnew ▸ hcreate call)
  | written call latest same fresh =>
      obtain ⟨r, rfl, hwrites⟩ := hwrite call
      exact ⟨.of_subset fun _ hj => hj, List.prefix_append _ _,
        h.written latest hwrites same fresh⟩

/-- **One change** by others. -/
theorem changes (h : k.Kept l) (hc : k.Changes l l') :
    l.Grows l' ∧ l.revisions <+: l'.revisions ∧ k.Kept l' := by
  have still : l.Grows l := .refl l
  cases hc with
  | upserted admitted =>
      refine ⟨still, List.prefix_rfl, h.withRegistry fun c hc => ?_⟩
      obtain ⟨entry, hentry, rfl⟩ := List.mem_map.mp hc
      rcases StringMap.mem_put hentry with rfl | hold
      · exact admitted
      · exact h.registry _ (List.mem_map_of_mem hold)
  | removed name =>
      refine ⟨still, List.prefix_rfl, h.withRegistry fun c hc => h.registry c ?_⟩
      exact (List.filter_sublist.map _).subset hc
  | resynced names =>
      refine ⟨still, List.prefix_rfl, h.withRegistry fun c hc => h.registry c ?_⟩
      exact (List.filter_sublist.map _).subset hc
  | jobs hages =>
      have grows : l.Grows { l with jobs := _ } := Job.Ages.exists_later hages
      refine ⟨grows, List.prefix_rfl, h.withJobs grows fun j' hj' => ?_⟩
      obtain ⟨j, hj, hage⟩ := Job.Ages.exists_earlier hages j' hj'
      exact (h.jobs j hj).imp (·.ages hage) (·.ages hage)
  | edited latest kin same fresh =>
      have hmem := Ledger.mem_of_latest? latest
      refine ⟨.of_subset fun _ hj => hj, List.prefix_append _ _, ?_⟩
      refine h.add latest ((h.kin _ hmem).trans kin) fresh (same ▸ h.known _ hmem) ?_
      simp [Request.news_of_status_eq same]

/-- **Where configurations are apart**, the log is faithful. -/
theorem faithful (h : k.Kept l) (apart : k.Apart) : l.Faithful := by
  intro r r' hpair method name hmem
  obtain ⟨c, m, hoffers, config, rfl, hholds⟩ := h.traced r r' hpair method name hmem
  refine ⟨hholds, c.name, config, fun j hj hname => ?_⟩
  rcases h.jobs j hj with hforeign | ⟨c', m', hoffers', hcarries⟩
  · exact absurd hname (hforeign c m hoffers)
  · have hsame := Option.some.inj (hcarries.name.symm.trans hname)
    rw [← apart hoffers' hoffers hsame]
    exact hcarries.label_config

end Kept

end Ledger

end Regime

/-! ### The contract -/

/-- Under this contract a job is created only from one of the configurations, and a status is
written only over the revision that was read, and says only of jobs that are there that they were
dispatched. -/
def provenanceContract (k : Regime) : Contract RequestStore Ledger where
  holds := k.Kept
  evolves l l' := l.Grows l' ∧ l.revisions <+: l'.revisions
  permits l
    | .createJob job => k.Own job
    | .patchStatus _ revision s => ∃ r, revision = r.metadata.resourceVersion ∧ k.Writes l r s
    | _ => True
  reports := Ledger.Tells
  evolves_refl l := ⟨.refl l, List.prefix_rfl⟩
  evolves_trans h h' := ⟨h.1.trans h'.1, h.2.trans h'.2⟩
  permits_mono {l l' c} hl h := by
    cases c with
    | createJob => exact h
    | patchStatus request revision s =>
        obtain ⟨r, hr, hwrites⟩ := h
        exact ⟨r, hr, hwrites.mono hl.1 hl.2⟩
    | _ => trivial

section Guide

variable {k : Regime} {l l' : Ledger}

/-- What is found for the request is a configuration that may come to be chosen. -/
theorem provenanceContract_finds {r : Request} {c : Config} (kin : k.request.Kin r)
    (known : ∀ name, (r.status.getD {}).config = some name → k.Known name)
    (h : (provenanceContract k).Finds l l' r (.ok c)) : k.admits c ∧ k.Known c.name := by
  obtain ⟨labels, snapshot, ⟨v, hv, hlabels, -⟩, ⟨v', hv', hconfigs, -⟩, hselect⟩ := h
  obtain rfl : labels = v.labels r.target := hlabels labels rfl
  obtain rfl : snapshot = v'.registry.snapshot := hconfigs
  rw [kin.target, hv.holds.labels] at hselect
  obtain ⟨hmem, hchosen | hselects⟩ := Snapshot.select_cases hselect
  · exact ⟨hv'.holds.registry c hmem, known c.name hchosen⟩
  · exact ⟨hv'.holds.registry c hmem, c, hv'.holds.registry c hmem, rfl, hselects⟩

/-- Passes keep the contract, from whichever revision they start. -/
def provenanceGuide (k : Regime) : Guide (provenanceContract k) k.settings where
  knows l r := k.Kept l ∧ r ∈ l.revisions
  chosen r c l s := k.InHand l r c s
  seen r c l s _ := k.InHand l r c s
  knows_mono hlead h := ⟨hlead.holds, hlead.evolves.2.subset h.2⟩
  chosen_mono hlead h := h.mono hlead.evolves.2
  seen_mono hlead h := h.mono hlead.evolves.2
  reads c hc := by
    cases c with
    | createJob => cases hc
    | patchStatus => cases hc
    | _ => trivial
  latest hl hrep := ⟨hl, Ledger.mem_of_latest? (hrep _ rfl)⟩
  rejects {w w' r e t} h _ _ := by
    refine ⟨r, rfl, h.2, h.1.known r h.2, _, Status.log_finalize _ _ _ _ _, ?_⟩
    intro method name hmem
    exact nomatch (Entry.of_eq_dispatched (List.mem_singleton.mp hmem).symm).1
  chooses {w w' r c t} h _ hfinds := by
    have kin := h.1.kin r h.2
    obtain ⟨admitted, known⟩ := provenanceContract_finds kin (h.1.known r h.2) hfinds
    exact .choosing h.2 kin admitted known t
  idle h _ := h
  looks h _ _ := h.observing _ _ _
  keeps h := ⟨_, rfl, h.writes⟩
  completes h _ := ⟨_, rfl, h.finalizes (by decide) _ _⟩
  exhausts h _ := ⟨_, rfl, h.finalizes (by decide) _ _⟩
  aborts {l r c s state elapsed index m e t t'} h _ _ := by
    have failed : k.InHand l r c
        ((s.selecting m.name t).record t' (some m.name) .methodFailed "" (some e.message)) :=
      h.congr rfl ((h.silent.selecting m.name t).records (Status.log_record _ _ _ _ _ _) nofun)
    exact ⟨r, rfl, failed.writes⟩
  creates h hnext hbuild := by
    have hm := List.mem_of_getElem? (Config.nextStep_dispatch hnext).1
    exact ⟨_, _, ⟨h.admitted, h.known, hm, _, h.kin.buildJob _ _ _ ▸ hbuild⟩,
      (Method.buildJob_ok (h.kin.buildJob _ _ _ ▸ hbuild)).1⟩
  dispatches h hnext hbuild htold hcreated := by
    have hm := List.mem_of_getElem? (Config.nextStep_dispatch hnext).1
    obtain ⟨v, -, hrep, hlead⟩ := htold
    have hholds := (hrep hcreated).mono hlead.evolves.1
    rw [(Method.buildJob_ok hbuild).1.name] at hholds
    exact ⟨_, rfl, h.dispatches ⟨h.admitted, h.known, hm, _, h.kin.buildJob _ _ _ ▸ hbuild⟩ hholds
      _ _⟩

/-- A ledger keeps its side of the contract. -/
theorem provenanceContract_binds :
    (provenanceContract k).Binds (fun _ _ => True)
      (Ledger.rules (· = k.settings) k.Changes) where
  stable _ _ _ _ _ := trivial
  begins hl h := by
    obtain ⟨_, r, now, rfl, hr, rfl⟩ := h
    exact (provenanceGuide k).reconcile hl (And.intro hl hr)
  answers hl hpermit hs := by
    obtain ⟨grows, hpre, hl'⟩ := hl.serves (fun hc => by subst hc; exact hpermit)
      (fun hc => by subst hc; exact hpermit) hs
    exact ⟨⟨⟨grows, hpre⟩, hl'⟩, hs.tells⟩
  changes hl h := by
    obtain ⟨grows, hpre, hl'⟩ := hl.changes h
    exact ⟨⟨grows, hpre⟩, hl'⟩
  shows _ := trivial

end Guide

namespace Regime

variable {k : Regime} {l : Ledger}

/-- What is known of a ledger stays known in every run. -/
theorem Underway.run {t : Traffic RequestStore (Except TaskError Outcome) Ledger}
    (h : k.Underway l)
    (hrun : Traffic.Run (Ledger.rules (· = k.settings) k.Changes) (.quiet l) t) :
    k.Kept t.site := by
  have quiet : Traffic.Orderly (provenanceContract k) (fun _ _ => True)
      (Traffic.quiet l : Traffic RequestStore (Except TaskError Outcome) Ledger) := .quiet h.kept
  exact (quiet.run provenanceContract_binds hrun).2.holds

end Regime

end NodeFencing
