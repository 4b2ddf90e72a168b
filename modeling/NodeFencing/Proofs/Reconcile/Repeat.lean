import NodeFencing.Proofs.Reconcile.Gates

/-!
# Passes that are repeated

A pass that puts no method in use leaves everything as a pass finds it that has nothing to do:
the configuration is noted, what was seen of the jobs is recorded, and the request has ended
or waits.  Another pass at the same time comes to the same decision then, and there is nothing
left to be written.  So it only reads, and says when to look again just as the first one did.

## Main Definitions

* `Ledger.Dispatches` — a pass tries to put a method in use
* `Ledger.Settled` — a request for which a pass has nothing to do
* `Ledger.glance` — the contract of a pass that only reads, and whose calls may be known not to
  fail
* `Ledger.Repeats` — passes that do nothing, and end in a certain way

## Main statements

* `Status.looked_looked` — what was seen of jobs is not recorded again
* `Ledger.Turn.settles` — a pass that puts no method in use leaves nothing to do
* `Ledger.Settled.repeats` — a pass that has nothing to do does nothing
* `pass_repeats` — a pass that puts no method in use may be repeated
-/

namespace NodeFencing

/-! ### What is recorded once -/

namespace Status

variable {s s' : Status} {name : String} {jobs : List Job} {t t' : Instant}

/-- Once jobs have been looked at, to look at them again records nothing. -/
theorem observing_observing (method : String) :
    (s.observing method jobs t).observing method jobs t' = s.observing method jobs t := by
  cases hjob : s.activeJob with
  | none =>
      cases hstate : methodState jobs with
      | running =>
          -- The job that runs is adopted, if it has a name.
          have adopts : s.observing method jobs t =
              { s with activeJob := jobs.findSome? (·.metadata.name) } := by
            simp [observing, hjob, hstate]
          rw [adopts]
          cases hname : jobs.findSome? (·.metadata.name) with
          | none => simp [observing, hstate, hname]
          | some job => exact observing_of_running rfl hstate
      | _ =>
          have still (t : Instant) : s.observing method jobs t = s :=
            observing_of_none hjob (by simp [hstate])
          rw [still t, still t']
  | some job =>
      have waiting : s.activeJob.isSome = true := by rw [hjob]; rfl
      cases hstate : methodState jobs with
      | running => rw [observing_of_running waiting hstate, observing_of_running waiting hstate]
      | _ =>
          have cleared : (s.observing method jobs t).activeJob = none := by
            simp [observing, hjob, hstate]
          exact observing_of_none cleared (by simp [hstate])

theorem looked_looked :
    (s.looked name jobs t).looked name jobs t' = s.looked name jobs t := by
  cases hactive : s.activeMethod with
  | none => simp [looked, hactive]
  | some method =>
      have looks (t : Instant) :
          s.looked name jobs t = s.observing method (jobs.filter (·.isFor name method)) t := by
        simp [looked, hactive]
      have active : (s.looked name jobs t).activeMethod = some method := by
        rw [activeMethod_looked, hactive]
      unfold looked at active ⊢
      rw [hactive] at active ⊢
      simp only [active]
      exact observing_observing method

end Status

/-! ### Decisions to wait -/

/-- A decision after which there is nothing to do for some time. -/
inductive Decision.Pauses (settings : Settings) : Decision → Outcome → Prop
  | wait {method} : Pauses settings (.wait method) (.requeue settings.dispatch.jobPoll)
  | delay {index remaining} : Pauses settings (.delay index remaining) (.requeue remaining)

namespace Decision.Pauses

variable {settings : Settings} {d : Decision} {outcome : Outcome} (h : d.Pauses settings outcome)
  {l : Ledger} {r : Request} {c : Config} {s : Status}

include h

/-- Nothing but what is at hand is written then. -/
theorem concludes : s.Concludes settings r c d s outcome := by
  cases h with
  | wait => exact .waits
  | delay => exact .delays

theorem prepares : l.Prepares r c settings d l := by
  cases h with
  | wait => exact rfl
  | delay => exact rfl

end Decision.Pauses

/-- Without a method that is put in use a pass waits, or ends the request. -/
theorem Status.Concludes.pauses_or_ends {settings : Settings} {r : Request} {c : Config}
    {s s' : Status} {d : Decision} {outcome : Outcome}
    (h : s.Concludes settings r c d s' outcome) (idle : ∀ index m, d ≠ .dispatch index m) :
    (d.Pauses settings outcome ∧ s' = s) ∨ (s'.complete = true ∧ outcome = .done) := by
  cases h with
  | waits => exact .inl ⟨.wait, rfl⟩
  | delays => exact .inl ⟨.delay, rfl⟩
  | completes => exact .inr ⟨rfl, rfl⟩
  | exhausts => exact .inr ⟨rfl, rfl⟩
  | aborts => exact absurd rfl (idle _ _)
  | dispatches => exact absurd rfl (idle _ _)

/-! ### Requests for which there is nothing to do -/

namespace Ledger

/-- A pass over a request tries to put a method in use: the request is due, and this is what is
decided. -/
def Dispatches (l : Ledger) (r : Request) (now : Instant) : Prop :=
  r.Due now ∧ ∃ c index m, l.choice r = .ok c ∧ l.decision r c now = .dispatch index m

/-- A request for which a pass has nothing to do: it has ended, or it is too early for it, or it has
to wait and all that the ledger shows is recorded. -/
inductive Settled (l : Ledger) (r : Request) (settings : Settings) (now : Instant) : Outcome → Prop
  | rests (h : r.isComplete = true) : Settled l r settings now .done
  | early {gate} (isOpen : r.isComplete = false) (hgate : r.gate? = some gate) (h : now < gate) :
      Settled l r settings now (.requeue (gate.since now))
  | pauses {c outcome} (due : r.Due now) (chosen : l.choice r = .ok c)
      (noted : (r.status.getD {}).config = some c.name)
      (recorded : ∀ t, (r.status.getD {}).looked r.name l.jobs t = r.status.getD {})
      (decided : (l.decision r c now).Pauses settings outcome) : Settled l r settings now outcome

section Settles

variable {l l' : Ledger} {r : Request} {settings : Settings} {now : Instant} {outcome : Outcome}

/-- What a pass leaves for which there is nothing to do then, with the latest revision. -/
structure Leaves (l : Ledger) (settings : Settings) (now : Instant) (outcome : Outcome)
    (l' : Ledger) (r' : Request) : Prop where
  latest : l'.latest? = some r'
  registry : l'.registry = l.registry
  labels : l'.labels = l.labels
  jobs : l'.jobs = l.jobs
  settled : l'.Settled r' settings now outcome

/-- A request that is ended is at rest. -/
theorem Stored.leaves_ended {s : Status} {r' : Request} (stored : l.Stored r s l' r')
    (ended : s.complete = true) : l.Leaves settings now .done l' r' := by
  refine ⟨stored.latest, stored.registry, stored.labels, stored.jobs, .rests ?_⟩
  rw [Request.isComplete_eq, stored.status, ended]

/-- **A pass that puts no method in use** leaves nothing to do. -/
theorem Turn.settles (latest : l.latest? = some r)
    (names : (l.registry.snapshot.map Config.name).Nodup) (idle : ¬ l.Dispatches r now)
    (turn : l.Turn r settings now l' outcome) :
    ∃ r', l.Leaves settings now outcome l' r' := by
  cases turn with
  | rests h => exact ⟨r, latest, rfl, rfl, rfl, .rests h⟩
  | early isOpen hgate h => exact ⟨r, latest, rfl, rfl, rfl, .early isOpen hgate h⟩
  | rejects due none_chosen writes =>
      obtain ⟨r', stored⟩ := writes.stored latest
      exact ⟨r', stored.leaves_ended rfl⟩
  | @concludes c t t' s' outcome l₁ l' due chosen concludes prepares writes =>
      have undecided (index : Nat) (m : Method) : l.decision r c now ≠ .dispatch index m :=
        fun decided => idle ⟨due, c, index, m, chosen, decided⟩
      obtain rfl : l₁ = l := by
        unfold Prepares at prepares
        split at prepares
        · next decided => exact absurd decided (undecided _ _)
        · exact prepares
      obtain ⟨r', stored⟩ := writes.stored latest
      rcases concludes.pauses_or_ends undecided with ⟨pauses, rfl⟩ | ⟨ended, rfl⟩
      · have isOpen : (r.status.getD {}).complete = false := r.isComplete_eq.symm.trans due.isOpen
        have found := Snapshot.get?_of_mem names (Snapshot.mem_of_select chosen)
        have recorded (u : Instant) :
            (r'.status.getD {}).looked r'.name l'.jobs u = r'.status.getD {} := by
          rw [stored.status, stored.jobs, stored.frame.1]
          exact Status.looked_looked
        have decided : (l'.decision r' c now).Pauses settings outcome := by
          rw [stored.decision now]
          exact pauses
        refine ⟨r', stored.latest, stored.registry, stored.labels, stored.jobs, ?_⟩
        refine .pauses (stored.due (by simp [hand, isOpen]) due)
          (stored.choice (by simp [hand]) found) ?_ recorded decided
        rw [stored.status]
        simp [hand]
      · exact ⟨r', stored.leaves_ended ended⟩

/-- A pass can do nothing where there is nothing to do. -/
theorem Settled.turn (settled : l.Settled r settings now outcome) :
    l.Turn r settings now l outcome := by
  cases settled with
  | rests h => exact .rests h
  | early isOpen hgate h => exact .early isOpen hgate h
  | @pauses c outcome due chosen noted recorded decided =>
      have unchanged : l.hand r c now now = r.status.getD {} := by
        have still : (r.status.getD {}).choosing c now = r.status.getD {} := if_pos noted
        rw [hand, still, recorded]
      have writes : l.Writes r (r.status.getD {}) (l.hand r c now now) l :=
        .inl ⟨unchanged.symm, rfl⟩
      exact .concludes due chosen decided.concludes decided.prepares writes

end Settles

end Ledger

/-! ### Passes that only read -/

/-- The contract of a program that only reads a ledger.  If it is sure of its calls, none of them
fails. -/
def Ledger.glance (l : Ledger) (sure : Prop) : Contract RequestStore Ledger :=
  { l.still with
    reports := fun l' c a => l'.Tells c a ∧ (sure → RequestMemory.failure? c a = none) }

/-- A program that only reads a ledger, and has a result if it is sure of its calls. -/
def Task.Glances {α : Type} (l : Ledger) (sure : Prop) (post : α → Prop) (t : RequestTask α) :
    Prop :=
  t.run.Keeps (l.glance sure)
    (fun _ result => (∀ a, result = .ok a → post a) ∧ (sure → ∃ a, result = .ok a)) l

namespace Task.Glances

variable {α β : Type} {l : Ledger} {sure : Prop} {post : α → Prop}

theorem pure {a : α} (h : post a) : Task.Glances l sure post (Pure.pure a) :=
  ⟨fun _ hr => Except.ok.inj hr ▸ h, fun _ => ⟨a, rfl⟩⟩

/-- One task behind another.  If the first fails, the program was not sure of its calls. -/
theorem bind {t : RequestTask α} {f : α → RequestTask β} {post' : β → Prop}
    (h : Task.Glances l sure post t) (hf : ∀ a, post a → Task.Glances l sure post' (f a)) :
    Task.Glances l sure post' (t >>= f) := by
  refine Program.Keeps.bind rfl h fun w' result hlead hpost => ?_
  obtain rfl : l = w' := hlead.evolves
  cases result with
  | ok a => exact hf a (hpost.1 a rfl)
  | error e =>
      refine ⟨fun _ hr => (nomatch hr), fun hsure => ?_⟩
      obtain ⟨a, ha⟩ := hpost.2 hsure
      cases ha

/-- The clock may be read. -/
theorem now : Task.Glances l sure (fun _ => True) Task.now :=
  fun _ t _ _ => ⟨fun _ _ => trivial, fun _ => ⟨t, rfl⟩⟩

theorem labels (node : String) :
    Task.Glances l sure (· = l.labels node) (ExceptT.mk (RequestStore.nodeLabels node)) := by
  refine ⟨rfl, fun w' answer hlead hrep => ⟨fun labels hr => ?_, fun hsure => ?_⟩⟩
  · obtain rfl : l = w' := hlead.evolves
    exact hrep.1 labels hr
  · cases answer with
    | ok labels => exact ⟨labels, rfl⟩
    | error e => cases hrep.2 hsure

theorem jobs (request method : String) :
    Task.Glances l sure (· = l.jobs.filter (·.isFor request method))
      (ExceptT.mk (RequestStore.methodJobs request method)) := by
  refine ⟨rfl, fun w' answer hlead hrep => ⟨fun jobs hr => ?_, fun hsure => ?_⟩⟩
  · obtain rfl : l = w' := hlead.evolves
    exact hrep.1 jobs hr
  · cases answer with
    | ok jobs => exact ⟨jobs, rfl⟩
    | error e => cases hrep.2 hsure

theorem configs :
    Task.Glances l sure (· = l.registry.snapshot)
      (ExceptT.lift RequestStore.configs : RequestTask Snapshot) := by
  refine ⟨rfl, fun w' snapshot hlead hrep => ⟨fun snapshot' hr => ?_, fun _ => ⟨snapshot, rfl⟩⟩⟩
  obtain rfl : l = w' := hlead.evolves
  exact Except.ok.inj hr ▸ hrep.1

/-- The jobs of the method in use are looked at. -/
theorem observe (name : String) (s : Status) :
    Task.Glances l sure (fun o => ∃ t, o = (s.looked name l.jobs t, s.found name l.jobs))
      (observe name s) := by
  obtain ⟨complete, result, config, activeMethod, activeJob, updates⟩ := s
  unfold NodeFencing.observe Status.looked Status.found
  cases activeMethod with
  | none => exact .pure ⟨default, rfl⟩
  | some method =>
      refine .bind (.jobs name method) ?_
      rintro _ rfl
      unfold Status.observing
      dsimp only
      cases activeJob <;> cases methodState (l.jobs.filter (·.isFor name method))
      case some.succeeded => exact .bind .now fun t _ => .pure ⟨t, rfl⟩
      case some.failed => exact .bind .now fun t _ => .pure ⟨t, rfl⟩
      case some.missing => exact .bind .now fun t _ => .pure ⟨t, rfl⟩
      all_goals exact .pure ⟨default, rfl⟩

end Task.Glances

section Glances

variable {l l' : Ledger} {r : Request} {settings : Settings} {now : Instant} {outcome : Outcome}
  {sure : Prop}

/-- A status that has not changed is not written. -/
theorem persist_same (settings : Settings) (r : Request) (s : Status) :
    persist settings r s s = pure () :=
  if_pos rfl

/-- **A pass that has nothing to do** only reads, and ends as it should. -/
theorem Ledger.Settled.glances (settled : l.Settled r settings now outcome) :
    Task.Glances l sure (· = outcome) (pass settings r now) := by
  cases settled with
  | rests h =>
      unfold pass
      rw [if_pos h]
      exact .pure rfl
  | early isOpen hgate h =>
      unfold pass
      rw [if_neg (by simp [isOpen]), hgate]
      dsimp only
      rw [if_pos h]
      exact .pure rfl
  | @pauses c outcome due chosen noted recorded decided =>
      have still : (r.status.getD {}).choosing c now = r.status.getD {} := if_pos noted
      rw [due.pass]
      refine .bind (.labels r.target) ?_
      rintro _ rfl
      refine .bind .configs ?_
      rintro _ rfl
      rw [show Snapshot.select _ _ _ _ = _ from chosen]
      dsimp only
      rw [show choose (r.status.getD {}) c = pure (r.status.getD {}) from if_pos noted]
      refine .bind (.pure rfl) ?_
      rintro _ rfl
      refine .bind (.observe r.name _) ?_
      rintro _ ⟨t, rfl⟩
      rw [recorded]
      unfold Ledger.decision at decided
      rw [still] at decided
      dsimp only
      generalize hdecision : Config.nextStep _ _ _ _ = decision
      rw [show c.nextStep _ _ (r.counted now) = decision from hdecision] at decided
      cases decided with
      | wait => rw [persist_same]; exact .pure rfl
      | delay => rw [persist_same]; exact .pure rfl

/-- The rules of a ledger on which nobody else does anything, and on which no call fails if this is
sure. -/
def Ledger.trusted (sure : Prop) : Rules RequestStore (Except TaskError Outcome) Ledger :=
  { Ledger.solo with
    answers := fun l c a l' => l.Serves c a l' ∧ (sure → RequestMemory.failure? c a = none) }

theorem Ledger.glance_binds (l : Ledger) (sure : Prop) {post : Except TaskError Outcome → Prop} :
    (l.glance sure).Binds (fun _ => post) (Ledger.trusted sure) where
  stable _ _ _ _ hpost := hpost
  begins _ h := by
    obtain ⟨_, _, _, never, -⟩ := h
    exact never.elim
  answers hw permitted served := by
    obtain ⟨served, unfailing⟩ := served
    obtain rfl := Ledger.Serves.read served permitted
    exact ⟨⟨rfl, hw⟩, served.tells, unfailing⟩
  changes _ changed := changed.elim
  shows _ := trivial

/-- A way to go is one by other rules too if they answer in the same way. -/
theorem Program.Goes.trusted {p₀ q : Program RequestStore (Except TaskError Outcome)}
    {had : List (Exchange RequestStore Ledger)} (h : Program.Goes Ledger.solo l p₀ had l' q)
    (unfailing : sure → ∀ x ∈ had, RequestMemory.failure? x.call x.answer = none) :
    Program.Goes (Ledger.trusted sure) l p₀ had l' q := by
  induction h with
  | begun => exact .begun
  | calls h answered ih =>
      have before := ih fun hsure x hx => unfailing hsure x (List.mem_append_left _ hx)
      refine before.calls ⟨answered, fun hsure => ?_⟩
      exact unfailing hsure _ (List.mem_append_right _ (List.mem_singleton_self _))
  | pauses h ih => exact (ih unfailing).pauses
  | looks h shown ih => exact (ih unfailing).looks shown
  | others h changed ih => exact changed.elim

/-- Passes over a request that do nothing: they only read, and leave the ledger as it is.  They end
with a certain outcome if no call fails, and otherwise at most with an error. -/
structure Ledger.Repeats (l : Ledger) (r : Request) (settings : Settings) (now : Instant)
    (outcome : Outcome) : Prop where
  reads : ∀ {had l' q}, Program.Goes Ledger.solo l (pass settings r now).run had l' q →
    l' = l ∧ ∀ x ∈ had, x.call.isRead = true
  returns : ∀ {had l' outcome'},
    Program.Goes Ledger.solo l (pass settings r now).run had l' (.done (.ok outcome')) →
      outcome' = outcome
  fails : ∀ {had l' e},
    Program.Goes Ledger.solo l (pass settings r now).run had l' (.done (.error e)) →
      ∃ x ∈ had, RequestMemory.failure? x.call x.answer ≠ none
  possible : ∃ had, Program.Goes Ledger.solo l (pass settings r now).run had l
    (.done (.ok outcome))

/-- **A pass that has nothing to do does nothing.** -/
theorem Ledger.Settled.repeats (settled : l.Settled r settings now outcome)
    (latest : l.latest? = some r) : l.Repeats r settings now outcome := by
  have goes {had : List (Exchange RequestStore Ledger)} {l' : Ledger}
      {q : Program RequestStore (Except TaskError Outcome)} (sure : Prop)
      (unfailing : sure → ∀ x ∈ had, RequestMemory.failure? x.call x.answer = none)
      (h : Program.Goes Ledger.solo l (pass settings r now).run had l' q) :=
    Program.Keeps.goes (l.glance_binds sure) rfl settled.glances (h.trusted unfailing)
  -- Whatever fails, the pass only reads; that it has a result needs calls that do not fail.
  constructor
  · intro had l' q h
    obtain ⟨hlead, -, hreads⟩ := goes False False.elim h
    exact ⟨hlead.holds, hreads⟩
  · intro had l' outcome' h
    obtain ⟨-, hkeeps, -⟩ := goes False False.elim h
    exact hkeeps.1 outcome' rfl
  · intro had l' e h
    by_contra none_fails
    have unfailing (x : Exchange RequestStore Ledger) (hx : x ∈ had) :
        RequestMemory.failure? x.call x.answer = none :=
      Classical.byContradiction fun fails => none_fails ⟨x, hx, fails⟩
    obtain ⟨-, hkeeps, -⟩ := goes True (fun _ => unfailing) h
    obtain ⟨outcome', hok⟩ := hkeeps.2 trivial
    cases hok
  · exact settled.turn.goes latest

end Glances

/-- **A pass that puts no method in use may be repeated**, for every request, registry, labels, jobs
and time.  If it succeeds, whatever failures it has met, the request can be read again.  The
registry, the labels and the jobs are then as they were, and another pass at the same time writes no
status and creates no job.  It ends with the same outcome unless one of its calls fails.

The configurations differ in name, as a registry keeps each under its own
(`Registry.Sound.map_name_snapshot`). -/
theorem pass_repeats {l l' : Ledger} {r : Request} {settings : Settings} {now : Instant}
    {had : List (Exchange RequestStore Ledger)} {outcome : Outcome} (hl : l.Versioned)
    (names : (l.registry.snapshot.map Config.name).Nodup) (latest : l.latest? = some r)
    (idle : ¬ l.Dispatches r now)
    (h : Program.Goes Ledger.solo l (pass settings r now).run had l' (.done (.ok outcome))) :
    ∃ r', l'.latest? = some r' ∧ l'.registry = l.registry ∧ l'.labels = l.labels ∧
      l'.jobs = l.jobs ∧ l'.Repeats r' settings now outcome := by
  have turn := (pass_goes_alone hl latest h).2 outcome rfl
  obtain ⟨r', leaves⟩ := turn.settles latest names idle
  exact ⟨r', leaves.latest, leaves.registry, leaves.labels, leaves.jobs,
    leaves.settled.repeats leaves.latest⟩

/-- Two methods, of which the second one demands a minute. -/
def softThenHard : Config where
  name := "racks"
  methods := [{ name := "soft", mechanisms := [{ command := some ["off"] }] },
    { name := "hard", requireAfterSeconds := some 60,
      mechanisms := [{ command := some ["off"] }] }]

/-- A request that waits for a job of the first method. -/
def waitingRequest : Request where
  metadata := { name := some "fence-node-1", uid := some "0f1e", resourceVersion := some "1",
                creationTimestamp := some ⟨0, 0⟩ }
  target := "node-1"
  status := some { config := some "racks", activeMethod := some "soft", activeJob := some "job-1" }

/-- A ledger with both, from which the job has been deleted. -/
def lostJobStart : Ledger where
  registry := Registry.insert {} softThenHard
  revisions := [waitingRequest]

/-- After twenty seconds a pass records that the job is gone, and has to wait for forty more until
the second method may be used.  It may be repeated. -/
theorem pass_repeats_lostJob :
    ∃ had l' r', lostJobStart.Versioned ∧
      (lostJobStart.registry.snapshot.map Config.name).Nodup ∧
      lostJobStart.latest? = some waitingRequest ∧
      ¬ lostJobStart.Dispatches waitingRequest ⟨20, 0⟩ ∧
      Program.Goes Ledger.solo lostJobStart (pass {} waitingRequest ⟨20, 0⟩).run had l'
        (.done (.ok (.requeue (.ofSeconds 40)))) ∧
      l'.latest? = some r' ∧ r'.status ≠ waitingRequest.status ∧
      l'.Repeats r' {} ⟨20, 0⟩ (.requeue (.ofSeconds 40)) := by
  have hl : lostJobStart.Versioned := .single rfl rfl
  have names : (lostJobStart.registry.snapshot.map Config.name).Nodup := List.nodup_singleton _
  have chosen : lostJobStart.choice waitingRequest = .ok softThenHard := rfl
  have decided : lostJobStart.decision waitingRequest softThenHard ⟨20, 0⟩ =
      .delay 1 (.ofSeconds 40) := by
    decide
  have idle : ¬ lostJobStart.Dispatches waitingRequest ⟨20, 0⟩ := by
    rintro ⟨-, c, index, m, chosen', dispatched⟩
    obtain rfl := Except.ok.inj (chosen.symm.trans chosen')
    cases decided.symm.trans dispatched
  have changes : waitingRequest.status.getD {} ≠
      lostJobStart.hand waitingRequest softThenHard ⟨20, 0⟩ ⟨20, 0⟩ := by
    decide
  have fresh : lostJobStart.Fresh (some "2") := by
    refine ⟨rfl, fun r hr => ?_⟩
    obtain rfl := List.mem_singleton.mp hr
    decide
  have pauses : (lostJobStart.decision waitingRequest softThenHard ⟨20, 0⟩).Pauses {}
      (.requeue (.ofSeconds 40)) := decided ▸ .delay
  have turn : lostJobStart.Turn waitingRequest {} ⟨20, 0⟩ _ (.requeue (.ofSeconds 40)) :=
    .concludes ⟨rfl, nofun⟩ chosen pauses.concludes pauses.prepares
      (.inr ⟨changes, some "2", fresh, rfl⟩)
  obtain ⟨had, hgoes⟩ := turn.goes rfl
  obtain ⟨r', latest, -, -, -, repeats⟩ := pass_repeats hl names rfl idle hgoes
  refine ⟨had, _, r', hl, names, rfl, idle, hgoes, latest, ?_, repeats⟩
  obtain rfl := Option.some.inj ((Ledger.latest?_add rfl).symm.trans latest)
  exact fun same => changes (congrArg (·.getD {}) same.symm)

end NodeFencing
