import NodeFencing.Proofs.Reconcile.Adoption
import NodeFencing.Proofs.Reconcile.Exhaustion
import NodeFencing.Proofs.Reconcile.Gates

/-!
# Requests that are given up although a method has succeeded

Each method that others follow, and that does not stop on success, can be the one that has
succeeded of a request that is given up.  The jobs of the methods in front of it are lost, so its
turn comes.  A job of its own is seen at work, and then seen to have succeeded.  Nevertheless the
next method is put in use, and the jobs of this one and of all behind it are lost.

So a request that is given up is one for which nothing has worked just where every method but the
last one stops on success.

## Main Definitions

* `Ledger.Reaches` — what becomes of a ledger while the registry stays as it is
* `Ledger.Stage` — a request of which some methods were selected
* `Request.Fruitless` — a request whose log says of no success

## Main statements

* `Ledger.Stage.skips`, `Ledger.Stage.waits`, `Ledger.Stage.works`, `Ledger.Stage.ends` — what a
  pass makes of jobs that are lost, that run and that have succeeded
* `opening_fruitful` — a request that is given up although a method has succeeded
* `givesUp_fruitless_iff` — when nothing has worked for all requests that are given up
-/

namespace NodeFencing

/-! ### What is reached -/

/-- What becomes of a ledger while the registry stays as it is.  Programs may have been left undone
on the way, but not all numbers are taken by them. -/
def Ledger.Reaches (l l' : Ledger) : Prop :=
  ∃ (t : Traffic RequestStore (Except TaskError Outcome) Ledger) (n : Nat),
    Traffic.Run (Ledger.rules (fun _ => True) Ledger.Besides) (.quiet l) t ∧ t.site = l' ∧
      ∀ k, n ≤ k → t.running k = none

namespace Ledger.Reaches

variable {l₀ l l' : Ledger} {r : Request} {settings : Settings} {now : Instant} {outcome : Outcome}

theorem refl (l : Ledger) : l.Reaches l :=
  ⟨.quiet l, 0, .refl, rfl, fun _ _ => rfl⟩

/-- Any jobs may be there. -/
theorem withJobs (h : l₀.Reaches l) (jobs : List Job) : l₀.Reaches { l with jobs } := by
  obtain ⟨t, n, hrun, rfl, free⟩ := h
  have besides : t.site.Besides { t.site with jobs } := ⟨.surroundings, rfl⟩
  exact ⟨_, n, hrun.tail (.change besides), rfl, free⟩

/-- A pass may do its turn. -/
theorem turn (h : l₀.Reaches l) (latest : l.latest? = some r)
    (turn : l.Turn r settings now l' outcome) : l₀.Reaches l' := by
  obtain ⟨t, n, hrun, rfl, free⟩ := h
  have begins : (Ledger.rules (fun _ => True) Ledger.Besides).begins t.site
      (reconcile settings r now).run :=
    ⟨settings, r, now, trivial, Ledger.mem_of_latest? latest, rfl⟩
  have yields : Task.Yields (Ledger.rules (fun _ => True) Ledger.Besides) t.site
      (reconcile settings r now) l' outcome :=
    Program.Yields.bind (turn.yields latest) .done
  obtain ⟨t', hrun', hsite, hrunning⟩ := hrun.begins n (free n le_rfl) begins yields.moves
  refine ⟨t', n + 1, hrun', hsite, fun k hk => ?_⟩
  rw [hrunning, Function.update_of_ne (by omega)]
  exact free k (by omega)

end Ledger.Reaches

/-! ### Jobs of the method in use -/

namespace Status

variable {s : Status} {name : String}

/-- Where there are no jobs, none are found. -/
@[simp] theorem found_nil (s : Status) (name : String) : s.found name [] = .missing := by
  unfold found
  split <;> rfl

section Single

variable {method : String} {job : Job} (hm : s.activeMethod = some method)
  (hfor : job.isFor name method = true)

include hm hfor

/-- A job of the method in use that is the only one shows how far it has come. -/
theorem found_single : s.found name [job] = job.state := by
  unfold found
  rw [hm]
  dsimp only
  rw [List.filter_singleton, hfor]
  exact methodState_singleton job

theorem looked_single (t : Instant) : s.looked name [job] t = s.observing method [job] t := by
  unfold looked
  rw [hm]
  dsimp only
  rw [List.filter_singleton, hfor]
  rfl

/-- A status waits for a job that it has seen at work. -/
theorem activeJob_looked (named : job.metadata.name.isSome = true) (running : job.state = .running)
    (t : Instant) : (s.looked name [job] t).activeJob.isSome = true := by
  have state : methodState [job] = .running := (methodState_singleton job).trans running
  rw [looked_single hm hfor]
  by_cases waits : s.activeJob.isSome = true
  · rw [observing_of_running waits state]
    exact waits
  · have hjob : s.activeJob = none := Option.not_isSome_iff_eq_none.mp waits
    simpa [observing, hjob, state] using named

/-- A status that waits for a job says so when it is seen to have succeeded. -/
theorem log_looked (waits : s.activeJob.isSome = true) (succeeded : job.state = .succeeded)
    (t : Instant) :
    (s.looked name [job] t).log = s.log ++ [.of (some method) .methodSucceeded] := by
  have state : methodState [job] = .succeeded := (methodState_singleton job).trans succeeded
  rw [looked_single hm hfor, observing_of_succeeded waits state]
  exact log_record s t (some method) .methodSucceeded "" none

end Single

end Status

/-- A job that is found for a method of a request. -/
def Request.jobOf (r : Request) (method : String) (status : JobStatus) : Job where
  metadata := { name := some (r.jobName method), labels := some (jobLabels r.name method) }
  status := some status

theorem Request.isFor_jobOf (r : Request) (method : String) (status : JobStatus) :
    (r.jobOf method status).isFor r.name method = true := by
  rw [Job.isFor_iff]
  simp [jobOf, Meta.label?, jobLabels, StringMap.get?, List.lookup_cons, requestLabel, methodLabel]

/-! ### Stages -/

/-- A request of which so many methods were selected, on a ledger that is reached. -/
structure Ledger.Stage (l₀ l : Ledger) (r : Request) (c : Config) (n : Nat) : Prop where
  reached : l₀.Reaches l
  latest : l.latest? = some r
  chosen : l.choice r = .ok c
  found : l.registry.snapshot.get? c.name = some c
  due : ∀ now, r.Due now
  begun : r.validFrom? = some ⟨0, 0⟩
  active : ((r.status.getD {}).choosing c ⟨0, 0⟩).activeMethod = (c.statusBefore n).activeMethod

namespace Ledger.Stage

variable {l₀ l : Ledger} {r : Request} {c : Config} {n : Nat} {m : Method}

/-- A request is at the same stage whatever jobs there are. -/
theorem withJobs (h : l₀.Stage l r c n) (jobs : List Job) : l₀.Stage { l with jobs } r c n :=
  ⟨h.reached.withJobs jobs, h.latest, h.chosen, h.found, h.due, h.begun, h.active⟩

/-- Which method is in use does not depend on the time at which the configuration is chosen. -/
theorem activeMethod_choosing (h : l₀.Stage l r c n) (t : Instant) :
    ((r.status.getD {}).choosing c t).activeMethod = (c.statusBefore n).activeMethod :=
  ((r.status.getD {}).activeMethod_choosing c t ⟨0, 0⟩).trans h.active

/-- **A pass at a stage** writes what it decides on, and the log goes on.  A request that is not
ended is then at the stage of its method. -/
theorem turn (h : l₀.Stage l r c n) (now : Instant) :
    ∃ t t' s' outcome l' r',
      (l.hand r c t t').Concludes {} r c (l.decision r c now) s' outcome ∧
      l₀.Reaches l' ∧ l'.latest? = some r' ∧ r'.status.getD {} = s' ∧
      (l.hand r c t t').log <+: r'.log ∧
      ∀ n', s'.config = some c.name → s'.complete = false →
        s'.activeMethod = (c.statusBefore n').activeMethod → l₀.Stage l' r' c n' := by
  obtain ⟨l', outcome, turn⟩ := Ledger.exists_turn {} (h.due now) h.chosen
  have reached := h.reached.turn h.latest turn
  obtain ⟨t, t', s', l₁, r', concludes, prepares, stored⟩ :=
    turn.decided h.latest (h.due now) h.chosen
  obtain ⟨jobs, rfl⟩ := prepares.jobs
  refine ⟨t, t', s', outcome, l', r', concludes, reached, stored.latest, stored.status, ?_, ?_⟩
  · rw [Request.log, stored.status]
    exact concludes.prefix_updates.map Update.entry
  · intro n' config isOpen active
    have settled : s'.choosing c ⟨0, 0⟩ = s' := if_pos config
    refine ⟨reached, stored.latest, stored.choice config h.found, ?_, ?_, ?_, ?_⟩
    · rw [stored.registry]
      exact h.found
    · exact fun now => stored.due isOpen (h.due now)
    · exact stored.frame.2.2.trans h.begun
    · rw [stored.status, settled]
      exact active

/-- What is in hand at a stage is not ended, and the configuration is noted. -/
theorem hand (h : l₀.Stage l r c n) (t t' : Instant) :
    (l.hand r c t t').config = some c.name ∧ (l.hand r c t t').complete = false ∧
      (l.hand r c t t').activeMethod = (c.statusBefore n).activeMethod := by
  have isOpen : (r.status.getD {}).complete = false :=
    r.isComplete_eq.symm.trans (h.due ⟨0, 0⟩).isOpen
  refine ⟨?_, ?_, ?_⟩
  · rw [Ledger.hand, Status.config_looked, Status.config_choosing]
  · rw [Ledger.hand, Status.complete_looked, Status.complete_choosing, isOpen]
  · rw [Ledger.hand, Status.activeMethod_looked, h.activeMethod_choosing]

/-- What is decided at a stage. -/
theorem decision (h : l₀.Stage l r c n) (now : Instant) :
    l.decision r c now = c.nextStep (c.statusBefore n).activeMethod
      (((r.status.getD {}).choosing c now).found r.name l.jobs) (now.since ⟨0, 0⟩) := by
  unfold Ledger.decision Request.counted
  rw [h.activeMethod_choosing, h.begun, Option.getD_some]

/-- **The method whose turn is next is put in use**, if that is decided. -/
theorem next (h : l₀.Stage l r c n) (hm : c.methods[n]? = some m) {now : Instant}
    (decided : l.decision r c now = .dispatch n m) :
    ∃ t t' l' r', l₀.Stage l' r' c (n + 1) ∧ (l.hand r c t t').log <+: r'.log := by
  obtain ⟨t, t', s', outcome, l', r', concludes, -, -, -, hlog, stage⟩ := h.turn now
  rw [decided] at concludes
  obtain ⟨config, complete, active, -⟩ := concludes.of_dispatch
  obtain ⟨handConfig, handOpen, -⟩ := h.hand t t'
  refine ⟨t, t', l', r', stage (n + 1) (config.trans handConfig) (complete.trans handOpen) ?_, hlog⟩
  rw [active, Config.statusBefore, hm, Option.map_some]

/-- The next method is put in use where the jobs of the one before are lost. -/
theorem skips (hc : c.fault? = none) (h : l₀.Stage l r c n) (hm : c.methods[n]? = some m) :
    ∃ l' r', l₀.Stage l' r' c (n + 1) ∧ r.log <+: r'.log := by
  have lost := h.withJobs []
  have decided : Ledger.decision { l with jobs := [] } r c ⟨m.requireAfterSeconds.getD 0, 0⟩ =
      .dispatch n m := by
    rw [lost.decision, Status.found_nil]
    exact Config.nextStep_statusBefore hc hm (fun _ _ _ _ => .inr (.inl rfl)) m.not_since_lt_gate
  obtain ⟨t, t', l', r', stage, hlog⟩ := lost.next hm decided
  exact ⟨l', r', stage, (Ledger.prefix_hand t t').trans hlog⟩

/-- **The turn of each method comes** where the jobs of those before are lost. -/
theorem skipsTo (hc : c.fault? = none) (h : l₀.Stage l r c n) {n' : Nat} (hle : n ≤ n')
    (hlength : n' ≤ c.methods.length) :
    ∃ l' r', l₀.Stage l' r' c n' ∧ r.log <+: r'.log := by
  induction n', hle using Nat.le_induction with
  | base => exact ⟨l, r, h, List.prefix_rfl⟩
  | succ n' hle ih =>
      obtain ⟨l₁, r₁, h₁, hlog₁⟩ := ih (Nat.le_of_succ_le hlength)
      obtain ⟨l', r', h', hlog'⟩ := h₁.skips hc (List.getElem?_eq_getElem hlength)
      exact ⟨l', r', h', hlog₁.trans hlog'⟩

section InUse

variable (hc : c.fault? = none) (h : l₀.Stage l r c (n + 1)) (hm : c.methods[n]? = some m)

include h hm

/-- The method in use is the last one that was selected. -/
theorem activeMethod_eq (t : Instant) :
    ((r.status.getD {}).choosing c t).activeMethod = some m.name := by
  rw [h.activeMethod_choosing, Config.statusBefore, hm, Option.map_some]

/-- What is decided when a job of the method in use is there. -/
theorem decision_jobOf (status : JobStatus) (now : Instant) :
    Ledger.decision { l with jobs := [r.jobOf m.name status] } r c now =
      c.nextStep (c.statusBefore (n + 1)).activeMethod status.state (now.since ⟨0, 0⟩) := by
  rw [(h.withJobs _).decision,
    Status.found_single (h.activeMethod_eq hm now) (r.isFor_jobOf m.name status)]
  rfl

include hc

/-- **A job that is at work is waited for.** -/
theorem waits : ∃ l' r', l₀.Stage l' r' c (n + 1) ∧ (r'.status.getD {}).config = some c.name ∧
    (r'.status.getD {}).activeJob.isSome = true := by
  have running : ({} : JobStatus).state = .running := by decide
  have decided : Ledger.decision { l with jobs := [r.jobOf m.name {}] } r c ⟨0, 0⟩ =
      .wait m.name := by
    rw [h.decision_jobOf hm, running]
    unfold Config.nextStep
    rw [Config.bind_statusBefore hc hm]
  have atWork := h.withJobs [r.jobOf m.name {}]
  obtain ⟨t, t', s', outcome, l', r', concludes, -, -, hs', -, stage⟩ := atWork.turn ⟨0, 0⟩
  obtain ⟨config, isOpen, active⟩ := atWork.hand t t'
  rw [decided] at concludes
  cases concludes with
  | waits =>
      refine ⟨l', r', stage (n + 1) config isOpen active, ?_, ?_⟩
      · rw [hs']
        exact config
      · rw [hs']
        exact Status.activeJob_looked (h.activeMethod_eq hm t) (r.isFor_jobOf m.name {}) rfl
          running t'

/-- **The next method is put in use although a job has succeeded** that was waited for, if the
method does not stop on success. -/
theorem works (config : (r.status.getD {}).config = some c.name)
    (waits : (r.status.getD {}).activeJob.isSome = true) (goesOn : m.stopOnSuccess = false)
    (hlast : n + 1 < c.methods.length) :
    ∃ l' r', l₀.Stage l' r' c (n + 2) ∧ .of (some m.name) .methodSucceeded ∈ r'.log := by
  let done : JobStatus := { succeeded := some 1 }
  have succeeded : done.state = .succeeded := by decide
  have hnext : c.methods[n + 1]? = some c.methods[n + 1] := List.getElem?_eq_getElem hlast
  have decided : Ledger.decision { l with jobs := [r.jobOf m.name done] } r c
      ⟨c.methods[n + 1].requireAfterSeconds.getD 0, 0⟩ =
        .dispatch (n + 1) c.methods[n + 1] := by
    rw [h.decision_jobOf hm, succeeded]
    refine Config.nextStep_statusBefore hc hnext ?_ (Method.not_since_lt_gate _)
    rintro _ m₀ ⟨⟩ hm₀
    obtain rfl := Option.some.inj (hm.symm.trans hm₀)
    exact .inr (.inr ⟨rfl, goesOn⟩)
  have hasWorked := h.withJobs [r.jobOf m.name done]
  obtain ⟨t, t', l', r', stage, hlog⟩ := hasWorked.next hnext decided
  refine ⟨l', r', stage, hlog.subset ?_⟩
  have settled : (r.status.getD {}).choosing c t = r.status.getD {} := if_pos config
  have active : (r.status.getD {}).activeMethod = some m.name := settled ▸ h.activeMethod_eq hm t
  rw [Ledger.hand, settled,
    Status.log_looked active (r.isFor_jobOf m.name done) waits succeeded t']
  exact List.mem_append_right _ (List.mem_singleton_self _)

/-- **A request is given up** where the jobs of the last method are lost. -/
theorem ends (hlast : c.methods.length ≤ n + 1) :
    ∃ l' r', l₀.Reaches l' ∧ l'.latest? = some r' ∧ (r'.status.getD {}).config = some c.name ∧
      (r'.status.getD {}).result = some .givingUp ∧ r.log <+: r'.log := by
  have lost := h.withJobs []
  have decided : Ledger.decision { l with jobs := [] } r c ⟨0, 0⟩ =
      .exhausted (c.statusBefore (n + 1)).activeMethod := by
    rw [lost.decision, Status.found_nil,
      Config.nextStep_of_passes (Config.bind_statusBefore hc hm) (.inr (.inl rfl)) nofun]
    exact Config.candidate_of_length_le hlast
  obtain ⟨t, t', s', outcome, l', r', concludes, reached, latest, hs', hlog, -⟩ := lost.turn ⟨0, 0⟩
  have config := (lost.hand t t').1
  rw [decided] at concludes
  cases concludes with
  | exhausts =>
      refine ⟨l', r', reached, latest, ?_, ?_, (Ledger.prefix_hand t t').trans hlog⟩
      · rw [hs']
        exact config
      · rw [hs']
        rfl

end InUse

end Ledger.Stage

/-! ### When nothing has worked -/

/-- A new request beside a registry, for a node with some labels. -/
def Registry.opening (g : Registry) (target : String) (labels : StringMap String) : Ledger where
  registry := g
  labels := fun _ => labels
  revisions := [{
    metadata := { name := some "fence-node-1", uid := some "0f1e", resourceVersion := some "1",
                  creationTimestamp := some ⟨0, 0⟩ }
    target }]

/-- A request whose log says of no success. -/
def Request.Fruitless (r : Request) : Prop :=
  ∀ method detail error, .of method .methodSucceeded detail error ∉ r.log

section Opening

variable {g : Registry} {c : Config} {target : String} {labels : StringMap String} {k : Nat}
  {m : Method}

theorem Registry.opening_new (g : Registry) (target : String) (labels : StringMap String) :
    (g.opening target labels).New g :=
  ⟨rfl, _, rfl, rfl, rfl⟩

/-- **A request is given up although a method has succeeded**, if others follow this method and it
does not stop on success. -/
theorem opening_fruitful (hg : g.Sound) (hselect : g.snapshot.select none target labels = .ok c)
    (hm : c.methods[k]? = some m) (goesOn : m.stopOnSuccess = false)
    (hlast : k + 1 < c.methods.length) :
    ∃ (t : Traffic RequestStore (Except TaskError Outcome) Ledger) (r : Request),
      Traffic.Run (Ledger.rules (fun _ => True) Ledger.Besides)
        (.quiet (g.opening target labels)) t ∧ r ∈ t.site.revisions ∧
      (r.status.getD {}).config = some c.name ∧ (r.status.getD {}).result = some .givingUp ∧
      .of (some m.name) .methodSucceeded ∈ r.log := by
  have hmem := Snapshot.mem_of_select hselect
  have hc := hg.fault? hmem
  have outset : (g.opening target labels).Stage (g.opening target labels) _ c 0 :=
    ⟨.refl _, rfl, hselect, hg.get?_name hmem, fun _ => ⟨rfl, nofun⟩, rfl, rfl⟩
  obtain ⟨l₁, r₁, selected, -⟩ := outset.skipsTo hc (Nat.zero_le _) hlast.le
  obtain ⟨l₂, r₂, atWork, config, waits⟩ := selected.waits hc hm
  obtain ⟨l₃, r₃, hasWorked, hlog⟩ := atWork.works hc hm config waits goesOn hlast
  -- The jobs of the method behind it, and of all others, are lost.
  obtain ⟨last, hlength⟩ : ∃ last, c.methods.length = last + 1 :=
    Nat.exists_eq_succ_of_ne_zero (Nat.ne_zero_of_lt hlast)
  have behind : k + 2 ≤ last + 1 := hlength ▸ hlast
  obtain ⟨l₄, r₄, tried, hlog₄⟩ := hasWorked.skipsTo hc behind hlength.ge
  have hm' : c.methods[last]? = some c.methods[last] := List.getElem?_eq_getElem (by omega)
  obtain ⟨l₅, r₅, ⟨t, -, hrun, rfl, -⟩, latest, config', given, hlog₅⟩ :=
    tried.ends hc hm' hlength.le
  refine ⟨t, r₅, hrun, Ledger.mem_of_latest? latest, config', given, ?_⟩
  exact hlog₅.subset (hlog₄.subset hlog)

end Opening

/-- **When nothing has worked for all requests that are given up.**  Every method of the
configuration of such a request was tried, and those that have succeeded do not stop on success and
are followed by others.  So no job has succeeded if there are no such methods; and with one of them,
a request of the configuration is given up although a method has succeeded. -/
theorem givesUp_fruitless_iff {g : Registry} (hg : g.Sound) :
    (∀ r, g.GivesUp r → ∃ c, g.Selectable c ∧ c.GivenUp (r.status.getD {})) ∧
      ∀ c, g.Selectable c →
        ((∀ r, g.GivesUp r → (r.status.getD {}).config = some c.name → r.Fruitless) ↔
          ∀ name, ¬ c.Continues name) := by
  refine ⟨fun r given => given.tried hg, fun c selectable => ⟨?_, ?_⟩⟩
  · rintro fruitless name ⟨k, m, hm, rfl, hlast, goesOn⟩
    obtain ⟨target, labels, hselect⟩ := selectable
    obtain ⟨t, r, hrun, hr, config, given, hlog⟩ := opening_fruitful hg hselect hm goesOn hlast
    have givesUp : g.GivesUp r := ⟨_, t, g.opening_new target labels, hrun, hr, given⟩
    exact fruitless r givesUp config _ _ _ hlog
  · intro stops r given config method detail error he
    obtain ⟨c', selectable', givenUp⟩ := given.tried hg
    obtain rfl : c = c' :=
      hg.eq_of_name selectable.mem selectable'.mem
        (Option.some.inj (config.symm.trans givenUp.config))
    obtain ⟨name, -, continues⟩ := givenUp.sober method detail error he
    exact stops name continues

/-- A configuration with two methods, of which the first one may stop on success or not. -/
def twoSteps (stops : Bool) : Config where
  name := "racks"
  methods := [
    { name := "power", stopOnSuccess := stops, mechanisms := [{ command := some ["off"] }] },
    { name := "storage", mechanisms := [{ command := some ["detach"] }] }]

theorem twoSteps_sound (stops : Bool) : (Registry.insert {} (twoSteps stops)).Sound := by
  refine Registry.sound_empty.insert ?_
  cases stops <;> decide

/-- If the first one of two methods stops on success, a request that is given up is one for which
nothing has worked. -/
theorem givesUp_fruitless_iff_stops :
    (Registry.insert {} (twoSteps true)).Sound ∧
      ∀ r, (Registry.insert {} (twoSteps true)).GivesUp r → r.Fruitless := by
  have sound := twoSteps_sound true
  obtain ⟨tried, fruitless⟩ := givesUp_fruitless_iff sound
  refine ⟨sound, fun r given => ?_⟩
  obtain ⟨c, selectable, givenUp⟩ := tried r given
  refine (fruitless c selectable).mpr ?_ r given givenUp.config
  rintro name ⟨k, m, hm, -, hlast, goesOn⟩
  obtain rfl : c = twoSteps true := List.mem_singleton.mp selectable.mem
  obtain rfl : k = 0 := by
    have two : (twoSteps true).methods.length = 2 := rfl
    omega
  obtain rfl := Option.some.inj hm
  cases goesOn

/-- A new request beside such a registry. -/
def twoStepsStart (stops : Bool) : Ledger :=
  (Registry.insert {} (twoSteps stops)).opening "node-1" []

/-- If it does not, a new request may be given up although its job has succeeded. -/
theorem twoSteps_fruitful :
    (twoStepsStart false).New (Registry.insert {} (twoSteps false)) ∧
      ∃ (t : Traffic RequestStore (Except TaskError Outcome) Ledger) (r : Request),
        Traffic.Run (Ledger.rules (fun _ => True) Ledger.Besides)
          (.quiet (twoStepsStart false)) t ∧
        r ∈ t.site.revisions ∧ (r.status.getD {}).result = some .givingUp ∧
        .of (some "power") .methodSucceeded ∈ r.log := by
  refine ⟨Registry.opening_new _ _ _, ?_⟩
  have hselect : (Registry.insert {} (twoSteps false)).snapshot.select none "node-1" [] =
      .ok (twoSteps false) := rfl
  have hfirst : (twoSteps false).methods[0]? = some (twoSteps false).methods[0] := rfl
  obtain ⟨t, r, hrun, hr, -, given⟩ :=
    opening_fruitful (twoSteps_sound false) hselect hfirst rfl (by decide)
  exact ⟨t, r, hrun, hr, given⟩

end NodeFencing
