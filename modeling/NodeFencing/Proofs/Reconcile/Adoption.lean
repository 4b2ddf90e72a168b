import NodeFencing.Proofs.Reconcile.Provenance
import NodeFencing.Proofs.Reconcile.Turn
import NodeFencing.Proofs.Time

/-!
# Jobs of another configuration

Where two configurations give their jobs the same name, the log need not be faithful.  A
request has come to the point where the turn of a method is next, and a job of the name
of this method is there, from another configuration.  The pass cannot create its job, for
there is one; it takes this one instead, and says that it dispatched the method.

So the condition under which the log is faithful in every run cannot be weakened.

## Main Definitions

* `Config.statusBefore`, `Regime.before`, `Regime.standing` — a request when the turn of a method is
  next, beside a job that has failed

## Main statements

* `reconcile_yields` — a pass that finds the job of the next method
* `Regime.exists_unfaithful` — a method that is said to be dispatched by another one's job
* `Regime.faithful_iff_apart` — when the log is faithful in every run
* `Regime.replaced_unfaithful` — a configuration that is replaced while its job runs
-/

namespace NodeFencing

/-! ### A pass that finds its job -/

section Pass

variable {runs : Settings → Prop} {changes : Ledger → Ledger → Prop} {l : Ledger}
  {settings : Settings} {r : Request} {s old new : Status} {c : Config} {m : Method} {job : Job}
  {version : Option String}

/-- There is nothing to record of jobs that have ended if the status does not wait for one. -/
theorem Status.looked_of_none {name : String} {jobs : List Job} (hjob : s.activeJob = none)
    (hstate : s.found name jobs ≠ .running) (t : Instant) : s.looked name jobs t = s := by
  unfold looked found at *
  split
  · rfl
  · next method hm =>
      rw [hm] at hstate
      exact observing_of_none hjob hstate

variable {now : Instant} {index : Nat}

variable (runs changes) in
/-- **A pass that finds the job of the next method** says that it dispatched it. -/
theorem reconcile_yields (t : Instant) (latest : l.latest? = some r) (hs : r.status = some s)
    (complete : s.complete = false) (hgate : r.gate? = none) (config : s.config = some c.name)
    (hjob : s.activeJob = none)
    (hselect : l.registry.snapshot.select (some c.name) r.target (l.labels r.target) = .ok c)
    (hstate : s.found r.name l.jobs ≠ .running)
    (hnext : c.nextStep s.activeMethod (s.found r.name l.jobs)
      (now.since (r.validFrom?.getD now)) = .dispatch index m)
    (hbuild : m.buildJob c r settings.dispatch.build = .ok job) (hholds : l.Holds job.metadata.name)
    (fresh : l.Fresh version) :
    Task.Yields (Ledger.rules runs changes) l (reconcile settings r now)
      (l.add (r.written ((s.selecting m.name t).dispatched m.name (r.jobName m.name) t) version))
      (.requeue settings.dispatch.jobPoll) := by
  have settled (t : Instant) : (r.status.getD {}).choosing c t = s := by
    rw [hs, Option.getD_some]
    exact if_pos config
  have decided : l.decision r c now = .dispatch index m := by
    unfold Ledger.decision
    rw [settled]
    exact hnext
  have inHand : l.hand r c t t = s := by
    unfold Ledger.hand
    rw [settled, Status.looked_of_none hjob hstate]
  have due : r.Due now :=
    ⟨by simp [Request.isComplete, hs, complete], fun _ h => nomatch hgate.symm.trans h⟩
  have longer : s ≠ (s.selecting m.name t).dispatched m.name (r.jobName m.name) t := by
    intro heq
    have lengths := congrArg (fun s : Status => s.log.length) heq
    simp at lengths
  have turn : l.Turn r settings now
      (l.add (r.written ((s.selecting m.name t).dispatched m.name (r.jobName m.name) t) version))
      (.requeue settings.dispatch.jobPoll) := by
    have chosen : l.choice r = .ok c := by
      unfold Ledger.choice
      rw [hs, Option.getD_some, config]
      exact hselect
    have concludes : (l.hand r c t t).Concludes settings r c (l.decision r c now)
        ((s.selecting m.name t).dispatched m.name (r.jobName m.name) t)
        (.requeue settings.dispatch.jobPoll) := by
      rw [inHand, decided]
      exact .dispatches hbuild
    have prepares : l.Prepares r c settings (l.decision r c now) l := by
      rw [decided]
      simp only [Ledger.Prepares, hbuild]
      exact .inl ⟨hholds, rfl⟩
    have writes : l.Writes r (r.status.getD {})
        ((s.selecting m.name t).dispatched m.name (r.jobName m.name) t)
        (l.add (r.written ((s.selecting m.name t).dispatched m.name (r.jobName m.name) t)
          version)) := by
      rw [hs]
      exact .inr ⟨longer, version, fresh, rfl⟩
    exact .concludes due chosen concludes prepares writes
  exact Program.Yields.bind (turn.yields latest) .done

end Pass

/-! ### Where configurations are not apart -/

namespace Config

/-- The status of a request when the turn of the method at a position is next. -/
def statusBefore (c : Config) (index : Nat) : Status where
  config := some c.name
  activeMethod := match index with
    | 0 => none
    | front + 1 => c.methods[front]?.map Method.name

variable {c : Config} {state : JobState} {elapsed : Duration}

/-- The method in front of the one whose turn is next is the one in use. -/
theorem bind_statusBefore (hc : c.fault? = none) {front : Nat} {m : Method}
    (hm : c.methods[front]? = some m) :
    (c.statusBefore (front + 1)).activeMethod.bind c.method? = some (front, m) := by
  have active : (c.statusBefore (front + 1)).activeMethod = some m.name := by
    rw [statusBefore, hm, Option.map_some]
  rw [active]
  exact method?_eq hc hm

/-- A method is next behind the one in front of it, if the jobs of that one let it pass. -/
theorem nextStep_statusBefore (hc : c.fault? = none) {index : Nat} {m : Method}
    (hm : c.methods[index]? = some m)
    (passes : ∀ front m₀, index = front + 1 → c.methods[front]? = some m₀ → state.passes m₀)
    (late : ¬ elapsed < m.gate) :
    c.nextStep (c.statusBefore index).activeMethod state elapsed = .dispatch index m := by
  cases index with
  | zero => exact candidate_of_late hm late
  | succ front =>
      have hlt : front + 1 < c.methods.length := (List.getElem?_eq_some_iff.mp hm).1
      have hfront : c.methods[front]? = some c.methods[front] :=
        List.getElem?_eq_getElem (Nat.lt_of_succ_lt hlt)
      have found := bind_statusBefore hc hfront
      rw [nextStep_of_passes found (passes front _ rfl hfront) fun _ => hlt]
      exact candidate_of_late hm late

end Config

/-- A job once it has failed. -/
def Job.lost (j : Job) : Job :=
  { j with status := some { failed := some 1 } }

/-- Beside a job that has failed no method is at work. -/
theorem Status.found_lost (s : Status) (name : String) (job : Job) :
    s.found name [job.lost] = .failed ∨ s.found name [job.lost] = .missing := by
  unfold found
  cases s.activeMethod with
  | none => exact .inr rfl
  | some method =>
      dsimp only
      rw [List.filter_singleton]
      cases job.lost.isFor name method with
      | true => exact .inl (methodState_singleton job.lost)
      | false => exact .inr rfl

/-- When a request has counted for as long as a method demands. -/
theorem Method.not_since_lt_gate (m : Method) :
    ¬ (⟨m.requireAfterSeconds.getD 0, 0⟩ : Instant).since ⟨0, 0⟩ < m.gate := by
  have regular (seconds : Int) : (⟨seconds, 0⟩ : Instant).inLeapSecond = false := rfl
  rw [Duration.lt_iff, Instant.nanos_since (regular _) (regular _)]
  simp only [Instant.total, gate, Duration.ofSeconds, Duration.second]
  omega

namespace Regime

variable {k : Regime} {c c' : Config} {m m' : Method} {index : Nat} {job : Job}

/-- A revision of the request when the turn of the method at a position is next. -/
def before (k : Regime) (c : Config) (index : Nat) : Request :=
  { k.request with
    metadata := { k.request.metadata with
      resourceVersion := some "1", creationTimestamp := some ⟨0, 0⟩ }
    notBefore := none
    status := some (c.statusBefore index) }

/-- A ledger on which this request stands beside a job that has failed. -/
def standing (k : Regime) (c : Config) (index : Nat) (job : Job) : Ledger where
  registry := Registry.insert {} c
  labels := fun _ => k.labels
  jobs := [job.lost]
  revisions := [k.before c index]

theorem before_kin : k.request.Kin (k.before c index) :=
  ⟨rfl, rfl, rfl, rfl, rfl⟩

theorem standing_underway (hc : k.admits c) (known : k.Known c.name) (hjob : k.Own job) :
    k.Underway (k.standing c index job) where
  revisions := by
    refine ⟨k.before c index, rfl, before_kin, rfl, fun name hname => ?_⟩
    obtain rfl : c.name = name := Option.some.inj hname
    exact known
  registry c' hc' := by
    obtain rfl : c' = c := List.mem_singleton.mp hc'
    exact hc
  labels := rfl
  jobs j hj := by
    obtain rfl := List.mem_singleton.mp hj
    obtain ⟨c₀, m, hoffers, hcarries⟩ := hjob
    exact .inr ⟨c₀, m, hoffers, hcarries.congr rfl rfl⟩

/-- The status that says that the method whose turn was next is dispatched. -/
def dispatchedAt (k : Regime) (c : Config) (index : Nat) (m : Method) : Status :=
  ((c.statusBefore index).selecting m.name ⟨0, 0⟩).dispatched m.name
    (k.request.jobName m.name) ⟨0, 0⟩

/-- The method whose turn is next is said to be dispatched if a job of the name is there. -/
theorem standing_run (hoffers : k.Offers c m) (hm : c.methods[index]? = some m)
    (hjob : job.metadata.name = some (k.request.jobName m.name)) :
    ∃ t, Traffic.Run (Ledger.rules (· = k.settings) k.Changes) (.quiet (k.standing c index job)) t ∧
      t.site = (k.standing c index job).add
        ((k.before c index).written (k.dispatchedAt c index m) (some "2")) := by
  obtain ⟨job', hbuild⟩ := hoffers.buildable
  have kin : k.request.Kin (k.before c index) := before_kin
  have hholds : (k.standing c index job).Holds job'.metadata.name := by
    refine ⟨job.lost, List.mem_singleton_self _, ?_⟩
    rw [(Method.buildJob_ok hbuild).1.name]
    exact hjob
  have found := (c.statusBefore index).found_lost (k.before c index).name job
  have idle : (c.statusBefore index).found (k.before c index).name [job.lost] ≠ .running := by
    rcases found with h | h <;> rw [h] <;> exact nofun
  have hnext := Config.nextStep_statusBefore (k.usable hoffers.admitted) hm
    (fun _ _ _ _ => found.imp_right .inl) m.not_since_lt_gate
  have hselect : (k.standing c index job).registry.snapshot.select (some c.name)
      (k.before c index).target ((k.standing c index job).labels (k.before c index).target) =
        .ok c := by
    refine Snapshot.select_chosen ?_
    simp [standing, Registry.insert, Registry.snapshot, StringMap.put, Snapshot.get?]
  have fresh : (k.standing c index job).Fresh (some "2") := ⟨rfl, by simp [standing, before]⟩
  have yields := reconcile_yields (· = k.settings) k.Changes ⟨0, 0⟩ rfl rfl rfl rfl rfl rfl hselect
    idle hnext (kin.buildJob m c _ ▸ hbuild) hholds fresh
  have begins : (Ledger.rules (· = k.settings) k.Changes).begins (k.standing c index job)
      (reconcile k.settings (k.before c index) ⟨m.requireAfterSeconds.getD 0, 0⟩).run :=
    ⟨k.settings, _, _, rfl, List.mem_singleton_self _, rfl⟩
  have nothing : Traffic.Run (Ledger.rules (· = k.settings) k.Changes)
      (.quiet (k.standing c index job)) (.quiet (k.standing c index job)) := .refl
  obtain ⟨t, hrun, hsite, -⟩ := nothing.begins 0 rfl begins yields.moves
  exact ⟨t, hrun, hsite⟩

/-- It is said so wrongly if the job is that of another configuration. -/
theorem standing_unfaithful (hjob : job.metadata.name = some (k.request.jobName m.name))
    (hlabel : job.metadata.label? configLabel ≠ some (labelValue c.name)) :
    ¬ ((k.standing c index job).add
      ((k.before c index).written (k.dispatchedAt c index m) (some "2"))).Faithful := by
  intro faithful
  have log : (k.dispatchedAt c index m).log = (k.before c index).log ++
      [.of (some m.name) .methodSelected, .dispatched m.name (k.request.jobName m.name)] := by
    rw [dispatchedAt, Status.log_dispatched, Status.log_selecting, List.append_assoc]
    rfl
  have news : Entry.dispatched m.name (k.request.jobName m.name) ∈ (k.before c index).news
      ((k.before c index).written (k.dispatchedAt c index m) (some "2")) := by
    rw [Request.news_written log]
    simp
  obtain ⟨-, config, hconfig, carried⟩ := faithful _ _ List.infix_rfl _ _ news
  obtain rfl : c.name = config := Option.some.inj hconfig
  exact hlabel (carried job.lost (List.mem_singleton_self _) hjob)

/-- **A method whose job has the name of another configuration's** may be said to be dispatched
although there is only the other one's job. -/
theorem exists_unfaithful (hoffers : k.Offers c m) (hoffers' : k.Offers c' m')
    (hname : k.request.jobName m.name = k.request.jobName m'.name)
    (hlabel : labelValue c.name ≠ labelValue c'.name) :
    ∃ l t, k.Underway l ∧
      Traffic.Run (Ledger.rules (· = k.settings) k.Changes) (.quiet l) t ∧ ¬ t.site.Faithful := by
  obtain ⟨job, hbuild⟩ := hoffers.buildable
  obtain ⟨index, hm⟩ := List.getElem?_of_mem hoffers'.method
  have carries := (Method.buildJob_ok hbuild).1
  have hjob : job.metadata.name = some (k.request.jobName m'.name) := hname ▸ carries.name
  have other : job.metadata.label? configLabel ≠ some (labelValue c'.name) := by
    rw [carries.label_config]
    exact fun heq => hlabel (Option.some.inj heq)
  obtain ⟨t, hrun, hsite⟩ := standing_run hoffers' hm hjob
  have underway : k.Underway (k.standing c' index job) :=
    standing_underway hoffers'.admitted hoffers'.known ⟨c, m, hoffers, carries⟩
  refine ⟨_, t, underway, hrun, ?_⟩
  rw [hsite]
  exact standing_unfaithful hjob other

/-- **The log is faithful in every run** just where jobs of the same name come from configurations
of the same label.  The request may have come any far when a run begins. -/
theorem faithful_iff_apart :
    (∀ l t, k.Underway l → Traffic.Run (Ledger.rules (· = k.settings) k.Changes) (.quiet l) t →
      t.site.Faithful) ↔ k.Apart := by
  constructor
  · intro faithful c m c' m' hoffers hoffers' hname
    by_contra hlabel
    obtain ⟨l, t, hl, hrun, hnot⟩ := exists_unfaithful hoffers hoffers' hname hlabel
    exact hnot (faithful l t hl hrun)
  · intro apart l t hl hrun
    exact (hl.run hrun).faithful apart

/-- A configuration with one method. -/
def racks : Config where
  name := "racks"
  methods := [{ name := "power", mechanisms := [{ command := some ["off"] }] }]

/-- Another configuration with a method of the same name. -/
def blades : Config where
  name := "blades"
  methods := [{ name := "power", mechanisms := [{ command := some ["unplug"] }] }]

/-- A new request, where either of the two may be in the registry. -/
def replaced : Regime where
  request := {
    metadata := { name := some "fence-node-1", uid := some "0f1e", resourceVersion := some "1" }
    target := "node-1" }
  settings := {}
  labels := []
  admits c := c = racks ∨ c = blades
  usable h := by
    rcases h with rfl | rfl
    · decide
    · decide

/-- The ledger on which it begins. -/
def replacedStart : Ledger where
  registry := Registry.insert {} racks
  revisions := [replaced.request]

theorem replaced_underway : replaced.Underway replacedStart where
  revisions := ⟨replaced.request, rfl, .refl _, rfl, fun _ h => nomatch h⟩
  registry c hc := .inl (List.mem_singleton.mp hc)
  labels := rfl
  jobs := by simp [replacedStart]

/-- The method is dispatched, and then its configuration is replaced by the other one.  The method
of this one is said to be dispatched, although there is only the job of the first. -/
theorem replaced_unfaithful :
    replaced.Underway replacedStart ∧ ∃ t : Traffic RequestStore (Except TaskError Outcome) Ledger,
      Traffic.Run (Ledger.rules (· = replaced.settings) replaced.Changes) (.quiet replacedStart) t ∧
      ¬ t.site.Faithful := by
  have begins {l : Ledger} {r : Request} (hr : r ∈ l.revisions) :
      (Ledger.rules (· = replaced.settings) replaced.Changes).begins l
        (reconcile {} r ⟨0, 0⟩).run :=
    ⟨{}, r, ⟨0, 0⟩, rfl, hr, rfl⟩
  have shown (l : Ledger) : (Ledger.rules (· = replaced.settings) replaced.Changes).shows l
      ⟨0, 0⟩ := trivial
  have free (job : Job) : ¬ replacedStart.Holds job.metadata.name := by
    simp [Ledger.Holds, replacedStart]
  have fresh (jobs : List Job) : Ledger.Fresh { replacedStart with jobs } (some "2") :=
    ⟨rfl, by simp [replacedStart, replaced]⟩
  have nothing : Traffic.Run (Ledger.rules (· = replaced.settings) replaced.Changes)
      (.quiet replacedStart) (.quiet replacedStart) := .refl
  -- The first pass creates the job of the one configuration.
  obtain ⟨⟨l₁, running₁⟩, hrun₁, rfl, rfl⟩ := nothing.begins 0 rfl
    (begins (List.mem_singleton_self _)) <|
    .head (.call (.effect .nodeLabels)) <| .head (.call (.effect .configs)) <|
    .head (.clock (shown _)) <| .head (.clock (shown _)) <|
    .head (.call (.effect (.created (free _)))) <| .head (.clock (shown _)) <|
    .single (.call (.effect (.landed rfl (.inr rfl) (fresh _))))
  have hrun₂ := (hrun₁.tail (.change (.removed "racks"))).tail (.change (.upserted (.inr rfl)))
  have held {l : Ledger} {j job : Job} (hl : l.jobs = [j])
      (hname : j.metadata.name = job.metadata.name) : l.Holds job.metadata.name :=
    ⟨j, hl ▸ List.mem_singleton_self j, hname⟩
  have fresh' {l : Ledger} {r r' : Request} (hl : l.revisions = [r, r'])
      (hr : r.metadata.resourceVersion = some "1") (hr' : r'.metadata.resourceVersion = some "2") :
      l.Fresh (some "3") :=
    ⟨rfl, by simp [hl, hr, hr']⟩
  -- The second pass finds a job of the name that it would give to that of the other one.
  obtain ⟨t, hrun, hsite, -⟩ := Traffic.Run.begins 1 hrun₂ rfl
    (begins (List.mem_cons_of_mem _ (List.mem_singleton_self _))) <|
    .head (.call (.effect .nodeLabels)) <| .head (.call (.effect .configs)) <|
    .head (.clock (shown _)) <| .head (.clock (shown _)) <|
    .head (.call (.effect (.taken (held rfl rfl) (e := .alreadyExists "") rfl))) <|
    .head (.clock (shown _)) <|
    .single (.call (.effect (.landed rfl (.inr rfl) (fresh' rfl rfl rfl))))
  refine ⟨replaced_underway, t, hrun, fun faithful => ?_⟩
  rw [hsite] at faithful
  obtain ⟨-, config, hconfig, carried⟩ := faithful _ _ ⟨[_], [], rfl⟩ "power"
    (replaced.request.jobName "power")
    (List.mem_cons_of_mem _ (List.mem_cons_of_mem _ List.mem_cons_self))
  obtain rfl : "blades" = config := Option.some.inj hconfig
  exact absurd (carried _ List.mem_cons_self rfl) (by decide)

end Regime

end NodeFencing
