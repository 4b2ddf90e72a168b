import NodeFencing.Proofs.Escalation
import NodeFencing.Proofs.Program.Record
import NodeFencing.Proofs.Reconcile.Entry
import NodeFencing.Proofs.Reconcile.History
import NodeFencing.Proofs.Reconcile.Turn
import NodeFencing.Proofs.Registry
import NodeFencing.Proofs.Time

/-!
# Gates

Two times hold a request back: the one before which nothing is done for it, and the one for
which it has to have counted before a method is used.  No pass goes through such a gate too
early, whatever it is told by the store.  A pass that is held says how long it still is.  If
then nobody touches the jobs, the registry and the labels, every earlier pass is held by the
same gate for just the rest of this time, and a pass at its end goes through.

## Main Definitions

* `Request.Admits` — the times that a request and a method demand are over
* `Gate`, `Ledger.Held` — what holds a request, and for how long
* `Ledger.Stays`, `Ledger.Selects` — passes that are held, and passes that select a method

## Main statements

* `pass_creates` — jobs are created only when it is time for them
* `Ledger.Held.later` — a request that is held, some time later
* `gates_hold_and_wake` — gates are not gone through too early, and open just in time
-/

namespace NodeFencing

/-! ### Times -/

/-- No leap second is in sight: neither is there one now, nor did the request begin to count in
one. -/
structure Request.Regular (r : Request) (now : Instant) : Prop where
  now : now.inLeapSecond = false
  start : ∀ start, r.validFrom? = some start → start.inLeapSecond = false

/-- The times that a request and a method demand are over. -/
structure Request.Admits (r : Request) (now : Instant) (m : Method) : Prop where
  opened : ∀ text gate, r.notBefore = some text → Instant.read? text = some gate → gate ≤ now
  counted : ∀ n, m.requireAfterSeconds = some n →
    ((n * Duration.second : Nat) : Int) ≤ max 0 (now.total - (r.validFrom?.getD now).total)

section Times

variable {r : Request} {now start gate : Instant} {m : Method}

/-- The time before which nothing is done is the one at which a request begins to count. -/
theorem Request.validFrom?_of_gate? (h : r.gate? = some gate) : r.validFrom? = some gate := by
  unfold validFrom?
  rw [h]
  rfl

theorem Request.Regular.nanos_counted (regular : r.Regular now) :
    (r.counted now).nanos = (now.total - (r.validFrom?.getD now).total).toNat := by
  refine Instant.nanos_since ?_ regular.now
  cases hstart : r.validFrom? with
  | none => exact regular.now
  | some start => exact regular.start start hstart

/-- It is time for a method if the request is due and has counted for long enough. -/
theorem Request.Due.admits (regular : r.Regular now) (due : r.Due now)
    (counted : ¬ r.counted now < m.gate) : r.Admits now m where
  opened text gate htext hread := by
    refine Instant.not_lt.mp (due.reached gate ?_)
    rw [gate?, htext]
    exact hread
  counted n hn := by
    rw [Duration.lt_iff, regular.nanos_counted] at counted
    have hgate : m.gate.nanos = n * Duration.second := by
      rw [Method.gate, hn]
      rfl
    omega

end Times

/-! ### Too early for a job -/

section Creates

variable {W : Type} {r : Request} {settings : Settings} {now : Instant}

/-- The configuration that is found for a request by what was told. -/
def Request.FoundIn (r : Request) (past : List (Exchange RequestStore W)) (c : Config) : Prop :=
  ∃ w₁ w₁' w₂ w₂' labels snapshot,
    ⟨w₁, .nodeLabels r.target, .ok labels, w₁'⟩ ∈ past ∧ ⟨w₂, .configs, snapshot, w₂'⟩ ∈ past ∧
      Snapshot.select snapshot (r.status.getD {}).config r.target labels = .ok c

/-- A job that may be created after what was told: it is that of a method of the configuration that
was found, and it is time for it. -/
def Request.Timely (r : Request) (settings : Settings) (now : Instant)
    (past : List (Exchange RequestStore W)) (job : Job) : Prop :=
  r.Due now ∧ ∃ c m, r.FoundIn past c ∧ m ∈ c.methods ∧
    m.buildJob c r settings.dispatch.build = .ok job ∧ ¬ r.counted now < m.gate

theorem Request.Timely.mono {past past' : List (Exchange RequestStore W)} {job : Job}
    (hpast : past <+: past') (h : r.Timely settings now past job) :
    r.Timely settings now past' job := by
  obtain ⟨due, c, m, ⟨_, _, _, _, _, _, hlabels, hconfigs, hselect⟩, h⟩ := h
  exact ⟨due, c, m, ⟨_, _, _, _, _, _, hpast.subset hlabels, hpast.subset hconfigs, hselect⟩, h⟩

/-- The conduct of a pass that creates a job only when it is time for it. -/
def timelyConduct (W : Type) (r : Request) (settings : Settings) (now : Instant) :
    Conduct RequestStore W where
  allows past c := ∀ job, c = .createJob job → r.Timely settings now past job
  mono hpast h job hc := (h job hc).mono hpast

variable (r settings now) in
/-- The route of a pass on its own past. -/
def timelyRoute : Route (timelyConduct W r settings now).contract settings r now [] where
  chosen c past _ := r.Due now ∧ r.FoundIn past c
  seen c past _ _ := r.Due now ∧ r.FoundIn past c
  chosen_mono hlead := by
    rintro ⟨due, _, _, _, _, _, _, hlabels, hconfigs, hselect⟩
    have hsub := hlead.evolves.subset
    exact ⟨due, _, _, _, _, _, _, hsub hlabels, hsub hconfigs, hselect⟩
  seen_mono hlead := by
    rintro ⟨due, _, _, _, _, _, _, hlabels, hconfigs, hselect⟩
    have hsub := hlead.evolves.subset
    exact ⟨due, _, _, _, _, _, _, hsub hlabels, hsub hconfigs, hselect⟩
  reads c _ hread := by
    rintro job rfl
    cases hread
  rejects _ _ _ := by
    intro job hcall
    cases hcall
  chooses _ due hfinds := by
    obtain ⟨labels, snapshot, hlabels, hconfigs, hselect⟩ := hfinds
    obtain ⟨_, _, hlabels⟩ := hlabels.exchanged
    obtain ⟨_, _, hconfigs⟩ := hconfigs.exchanged
    exact ⟨due, _, _, _, _, labels, snapshot, hlabels, hconfigs, hselect⟩
  idle _ hchosen _ := hchosen
  looks _ hchosen _ _ := hchosen
  creates _ hseen hnext hbuild := by
    rintro _ ⟨⟩
    obtain ⟨due, hfound⟩ := hseen
    have hm := List.mem_of_getElem? (Config.nextStep_dispatch hnext).1
    exact ⟨due, _, _, hfound, hm, hbuild, Config.nextStep_gate hnext⟩
  writes _ _ _ _ := by
    intro job hcall
    cases hcall

variable {R : Rules RequestStore (Except TaskError Outcome) W} {w w' : W}
  {had : List (Exchange RequestStore W)} {q : Program RequestStore (Except TaskError Outcome)}

/-- **Jobs are created only when it is time for them**, whatever the store answers. -/
theorem pass_creates (h : Program.Goes R w (pass settings r now).run had w' q)
    {before : List (Exchange RequestStore W)} {x : Exchange RequestStore W} {job : Job}
    (hx : before ++ [x] <+: had) (call : x.call = .createJob job) :
    r.Timely settings now before job := by
  have keeps : Task.Keeps (timelyConduct W r settings now).contract _ (pass settings r now) [] :=
    (timelyRoute r settings now).pass trivial
  exact (Program.Keeps.recalled keeps h).2 before x hx job call

end Creates

/-! ### Requests that are held -/

/-- What may hold a request: the time before which nothing is done, or the one that the method at a
position demands. -/
inductive Gate where
  | opening
  | method (index : Nat)

/-- A request that a gate holds for some time. -/
inductive Ledger.Held (l : Ledger) (r : Request) (now : Instant) : Gate → Duration → Prop
  | opening {gate} (isOpen : r.isComplete = false) (hgate : r.gate? = some gate)
      (early : now < gate) : Held l r now .opening (gate.since now)
  | method {c start index d} (due : r.Due now) (begun : r.validFrom? = some start)
      (past : start ≤ now) (chosen : l.choice r = .ok c)
      (delayed : l.decision r c now = .delay index d) : Held l r now (.method index) d

section Held

variable {l l' : Ledger} {r r' : Request} {c : Config} {settings : Settings} {now : Instant}
  {gate : Gate} {d d' : Duration} {outcome : Outcome} {s : Status}

/-- What is decided next depends on the time alone once what was looked at is stored. -/
theorem Ledger.Stored.decision {t t' : Instant} (stored : l.Stored r (l.hand r c t t') l' r')
    (u : Instant) :
    l'.decision r' c u = c.nextStep ((r.status.getD {}).choosing c now).activeMethod
      (((r.status.getD {}).choosing c now).found r.name l.jobs) (r.counted u) := by
  have again : (l.hand r c t t').choosing c u = l.hand r c t t' := by
    refine if_pos ?_
    rw [Ledger.hand, Status.config_looked, Status.config_choosing]
  have active : (l.hand r c t t').activeMethod =
      ((r.status.getD {}).choosing c now).activeMethod := by
    rw [Ledger.hand, Status.activeMethod_looked]
    exact (r.status.getD {}).activeMethod_choosing c t now
  obtain ⟨hname, -, hstart⟩ := stored.frame
  unfold Ledger.decision Request.counted Status.found
  rw [stored.status, again, active, hname, hstart, stored.jobs]

/-- What a pass leaves that is held, and with which revision. -/
inductive Ledger.Left (l : Ledger) (r : Request) : Gate → Ledger → Request → Prop
  | opening (latest : l.latest? = some r) : Left l r .opening l r
  | method {index c t t' l' r'} (chosen : l.choice r = .ok c)
      (stored : l.Stored r (l.hand r c t t') l' r') : Left l r (.method index) l' r'

theorem Ledger.Left.versioned (left : l.Left r gate l' r') (hl : l.Versioned) : l'.Versioned := by
  cases left with
  | opening latest => exact hl
  | method chosen stored => exact stored.versioned hl

theorem Ledger.Left.latest (left : l.Left r gate l' r') : l'.latest? = some r' := by
  cases left with
  | opening latest => exact latest
  | method chosen stored => exact stored.latest

/-- **A pass that is held** says how long, and stores at most what it has looked at. -/
theorem Ledger.Held.turn (held : l.Held r now gate d) (latest : l.latest? = some r)
    (turn : l.Turn r settings now l' outcome) :
    outcome = .requeue d ∧ ∃ r', l.Left r gate l' r' := by
  cases held with
  | opening isOpen hgate early =>
      have notDue (due : r.Due now) : False := due.reached _ hgate early
      cases turn with
      | rests h => cases isOpen.symm.trans h
      | early _ hgate' _ =>
          obtain rfl := Option.some.inj (hgate.symm.trans hgate')
          exact ⟨rfl, r, .opening latest⟩
      | rejects due => exact (notDue due).elim
      | concludes due => exact (notDue due).elim
  | method due begun past chosen delayed =>
      obtain ⟨t, t', s', l₁, r', concludes, prepares, stored⟩ := turn.decided latest due chosen
      rw [delayed] at concludes prepares
      obtain rfl : l₁ = l := prepares
      cases concludes with
      | delays => exact ⟨rfl, r', .method chosen stored⟩

/-- A pass can be held. -/
theorem Ledger.Held.exists_turn (held : l.Held r now gate d) (latest : l.latest? = some r)
    (settings : Settings) : ∃ l', l.Turn r settings now l' (.requeue d) := by
  cases held with
  | opening isOpen hgate early => exact ⟨l, .early isOpen hgate early⟩
  | method due begun past chosen delayed =>
      obtain ⟨l', outcome, turn⟩ := Ledger.exists_turn settings due chosen
      obtain ⟨rfl, -⟩ := (Ledger.Held.method due begun past chosen delayed).turn latest turn
      exact ⟨l', turn⟩

/-! ### Some time later -/

/-- A request that a gate does not hold any more. -/
def Ledger.Through (l : Ledger) (r : Request) (now : Instant) : Gate → Prop
  | .opening => r.Due now
  | .method index => ∃ c m, r.Due now ∧ l.choice r = .ok c ∧ c.methods[index]? = some m ∧
      l.decision r c now = .dispatch index m

/-- There is some time left as long as a request is held. -/
theorem Ledger.Held.pos (held : l.Held r now gate d) (regular : r.Regular now) : 0 < d.nanos := by
  cases held with
  | opening _ _ early => exact Instant.since_pos early regular.now
  | method _ _ _ _ delayed =>
      obtain ⟨m, -, early, rfl⟩ := Config.nextStep_delay delayed
      exact Nat.sub_pos_of_lt early

/-- The count of a request goes on with the time. -/
theorem Request.Regular.counted_after {start : Instant} (regular : r.Regular now)
    (begun : r.validFrom? = some start) (past : start ≤ now) (d : Duration) :
    r.counted (now.after d) = r.counted now + d := by
  have hstart := regular.start start begun
  have hpast := (Instant.le_iff_total hstart regular.now).mp past
  have later : r.Regular (now.after d) := ⟨now.inLeapSecond_after d, regular.start⟩
  refine Duration.ext ?_
  rw [Duration.nanos_add, regular.nanos_counted, later.nanos_counted, begun, Option.getD_some,
    Option.getD_some, Instant.total_after]
  omega

/-- A request that is due remains so. -/
theorem Request.Due.after (due : r.Due now) (regular : r.Regular now) (d : Duration) :
    r.Due (now.after d) where
  isOpen := due.isOpen
  reached gate hgate := by
    have hregular := regular.start gate (Request.validFrom?_of_gate? hgate)
    have past := Instant.not_lt.mp (due.reached gate hgate)
    exact Instant.not_lt.mpr (Instant.le_after now d hregular regular.now past)

/-- **A request that is held, some time later**: it is held by the same gate for the rest of the
time, and is through at the end. -/
theorem Ledger.Held.later (held : l.Held r now gate d) (regular : r.Regular now)
    (names : (l.registry.snapshot.map Config.name).Nodup) (left : l.Left r gate l' r')
    (d' : Duration) :
    (d' < d → l'.Held r' (now.after d') gate (d - d')) ∧
      (¬ d' < d → l'.Through r' (now.after d') gate) := by
  cases held with
  | @opening gate isOpen hgate early =>
      cases left
      have hregular := regular.start gate (Request.validFrom?_of_gate? hgate)
      have iff_lt := Instant.after_lt_iff d' regular.now hregular
      refine ⟨fun hlt => ?_, fun hnot => ⟨isOpen, fun gate' hgate' => ?_⟩⟩
      · rw [← Instant.since_after d' regular.now hregular]
        exact .opening isOpen hgate (iff_lt.mpr hlt)
      · obtain rfl := Option.some.inj (hgate.symm.trans hgate')
        exact fun hlt => hnot (iff_lt.mp hlt)
  | @method c start index d due begun past chosen delayed =>
      cases left with
      | method chosen' stored =>
          obtain rfl := Except.ok.inj (chosen.symm.trans chosen')
          have found := Snapshot.get?_of_mem names (Snapshot.mem_of_select chosen)
          have choice := stored.choice (by simp [Ledger.hand]) found
          have isOpen : (r.status.getD {}).complete = false :=
            r.isComplete_eq.symm.trans due.isOpen
          have due' := stored.due (by simp [Ledger.hand, isOpen]) (due.after regular d')
          obtain ⟨m, hm, hnext⟩ := Config.nextStep_of_delay delayed
          obtain ⟨m', hm', early, rfl⟩ := Config.nextStep_delay delayed
          obtain rfl := Option.some.inj (hm.symm.trans hm')
          have decision := (stored.decision (now.after d')).trans (hnext _)
          have iff_lt := Duration.add_lt_iff (r.counted now) d' m.gate
          rw [regular.counted_after begun past d'] at decision
          refine ⟨fun hlt => ?_, fun hnot => ?_⟩
          · rw [if_pos (iff_lt.mpr hlt), Duration.sub_add] at decision
            have past' := Instant.le_after now d' (regular.start start begun) regular.now past
            exact .method due' (stored.frame.2.2.trans begun) past' choice decision
          · rw [if_neg (fun h => hnot (iff_lt.mp h))] at decision
            exact ⟨c, m, due', choice, hm, decision⟩

end Held

/-! ### Passes that are held, and passes that are not -/

/-- Passes over a request that has to wait: they create no job, and say how long it is. -/
structure Ledger.Stays (l : Ledger) (r : Request) (settings : Settings) (now : Instant)
    (d : Duration) : Prop where
  creates : ∀ {had l' q x}, Program.Goes Ledger.solo l (pass settings r now).run had l' q →
    x ∈ had → ∀ job, x.call ≠ .createJob job
  waits : ∀ {had l' outcome},
    Program.Goes Ledger.solo l (pass settings r now).run had l' (.done (.ok outcome)) →
      outcome = .requeue d
  possible : ∃ had l', Program.Goes Ledger.solo l (pass settings r now).run had l'
    (.done (.ok (.requeue d)))

/-- Passes over a request that select a method: they create no job but that of the method, and the
status says that the method is in use. -/
structure Ledger.Selects (l : Ledger) (r : Request) (settings : Settings) (now : Instant)
    (c : Config) (m : Method) : Prop where
  creates : ∀ {had l' q x job}, Program.Goes Ledger.solo l (pass settings r now).run had l' q →
    x ∈ had → x.call = .createJob job → m.buildJob c r settings.dispatch.build = .ok job
  selects : ∀ {had l' outcome},
    Program.Goes Ledger.solo l (pass settings r now).run had l' (.done (.ok outcome)) →
      ∃ r', l'.latest? = some r' ∧ (r'.status.getD {}).activeMethod = some m.name ∧
        Entry.of (some m.name) .methodSelected ∈ r.news r'
  possible : ∃ had l' outcome, Program.Goes Ledger.solo l (pass settings r now).run had l'
    (.done (.ok outcome))

/-- Passes for which a gate is open: they go on, or select the method that had to wait. -/
def Ledger.Opens (l : Ledger) (r : Request) (settings : Settings) (now : Instant) : Gate → Prop
  | .opening => pass settings r now = advance settings r now
  | .method index => ∃ c m, l.choice r = .ok c ∧ c.methods[index]? = some m ∧
      l.Selects r settings now c m

section Passes

variable {l l' : Ledger} {r : Request} {c : Config} {m : Method} {settings : Settings}
  {now : Instant} {gate : Gate} {d : Duration} {outcome : Outcome} {index : Nat}

theorem Ledger.Held.stays (held : l.Held r now gate d) (hl : l.Versioned)
    (latest : l.latest? = some r) : l.Stays r settings now d where
  creates h hx job call := by
    obtain ⟨due, c, index, m, chosen, decided, -⟩ :=
      call ▸ (pass_goes_alone hl latest h).1 _ hx
    cases held with
    | opening _ hgate early => exact due.reached _ hgate early
    | method _ _ _ chosen' delayed =>
        obtain rfl := Except.ok.inj (chosen.symm.trans chosen')
        cases decided.symm.trans delayed
  waits h := (held.turn latest ((pass_goes_alone hl latest h).2 _ rfl)).1
  possible := by
    obtain ⟨l', turn⟩ := held.exists_turn latest settings
    obtain ⟨had, hgoes⟩ := turn.goes latest
    exact ⟨had, l', hgoes⟩

/-- The log of a status goes on while a configuration is chosen and the jobs are looked at. -/
theorem Ledger.prefix_hand (t t' : Instant) : r.log <+: (l.hand r c t t').log := by
  have chosen : (r.status.getD {}).updates <+: ((r.status.getD {}).choosing c t).updates :=
    Status.prefix_choosing c
  refine (chosen.map Update.entry).trans ?_
  unfold hand Status.looked
  split
  · exact List.prefix_rfl
  · exact (Status.prefix_observing _ _).map Update.entry

/-- A turn that puts a method in use says so. -/
theorem Ledger.Turn.selects (latest : l.latest? = some r) (chosen : l.choice r = .ok c)
    (due : r.Due now) (decided : l.decision r c now = .dispatch index m)
    (turn : l.Turn r settings now l' outcome) :
    ∃ r', l'.latest? = some r' ∧ (r'.status.getD {}).activeMethod = some m.name ∧
      .of (some m.name) .methodSelected ∈ r.news r' := by
  obtain ⟨t, t', s', l₁, r', concludes, -, stored⟩ := turn.decided latest due chosen
  rw [decided] at concludes
  obtain ⟨-, -, active, entries, hlog⟩ := concludes.of_dispatch
  have stored_log : r'.log = (l.hand r c t t').log ++
      (.of (some m.name) .methodSelected :: entries) := by
    rw [Request.log, stored.status, hlog]
  refine ⟨r', stored.latest, stored.status ▸ active, ?_⟩
  exact Request.mem_news (Ledger.prefix_hand t t') stored_log List.mem_cons_self

/-- Where the next step is to put a method in use, passes select it. -/
theorem Ledger.Through.opens (through : l.Through r now gate) (hl : l.Versioned)
    (latest : l.latest? = some r) : l.Opens r settings now gate := by
  cases gate with
  | opening => exact Request.Due.pass through
  | method index =>
      obtain ⟨c, m, due, chosen, hm, decided⟩ := through
      refine ⟨c, m, chosen, hm, ?_⟩
      constructor
      · intro had l' q x job h hx call
        obtain ⟨-, c', index', m', chosen', decided', hbuild⟩ :=
          call ▸ (pass_goes_alone hl latest h).1 _ hx
        obtain rfl := Except.ok.inj (chosen.symm.trans chosen')
        obtain ⟨rfl, rfl⟩ := Decision.dispatch.inj (decided.symm.trans decided')
        exact hbuild
      · intro had l' outcome h
        exact ((pass_goes_alone hl latest h).2 _ rfl).selects latest chosen due decided
      · obtain ⟨l', outcome, turn⟩ := Ledger.exists_turn settings due chosen
        obtain ⟨had, hgoes⟩ := turn.goes latest
        exact ⟨had, l', outcome, hgoes⟩

end Passes

/-- **Gates are not gone through too early, and open just in time.**  Whatever a store answers, a
pass creates a job only for a method of the configuration that it has found, and only when the times
are over that the request and the method demand.  A pass that is held by one of these times says how
long.  If nobody else does anything then, all passes over the latest revision are held by the same
gate for the rest of the time, and those at its end and later are not: the time before which nothing
is done does not hold them, and the method that had to wait is the one that they select. -/
theorem gates_hold_and_wake {r : Request} {settings : Settings} {now : Instant}
    (regular : r.Regular now) :
    (∀ {W : Type} {R : Rules RequestStore (Except TaskError Outcome) W} {w w' had q},
      Program.Goes R w (pass settings r now).run had w' q →
        ∀ before x job, before ++ [x] <+: had → x.call = .createJob job →
          ∃ c m, r.FoundIn before c ∧ m ∈ c.methods ∧
            m.buildJob c r settings.dispatch.build = .ok job ∧ r.Admits now m) ∧
      ∀ {l l' : Ledger} {gate d had outcome}, l.Versioned →
        (l.registry.snapshot.map Config.name).Nodup → l.latest? = some r → l.Held r now gate d →
        Program.Goes Ledger.solo l (pass settings r now).run had l' (.done (.ok outcome)) →
          outcome = .requeue d ∧ 0 < d.nanos ∧ ∃ r', l'.latest? = some r' ∧
            ∀ d', (d' < d → l'.Held r' (now.after d') gate (d - d') ∧
                l'.Stays r' settings (now.after d') (d - d')) ∧
              (¬ d' < d → l'.Opens r' settings (now.after d') gate) := by
  constructor
  · intro W R w w' had q h before x job hx call
    obtain ⟨due, c, m, found, hm, hbuild, counted⟩ := pass_creates h hx call
    exact ⟨c, m, found, hm, hbuild, due.admits regular counted⟩
  · intro l l' gate d had outcome hl names latest held h
    obtain ⟨rfl, r', left⟩ := held.turn latest ((pass_goes_alone hl latest h).2 _ rfl)
    refine ⟨rfl, held.pos regular, r', left.latest, fun d' => ?_⟩
    obtain ⟨before, behind⟩ := held.later regular names left d'
    have hl' := left.versioned hl
    exact ⟨fun hlt => ⟨before hlt, (before hlt).stays hl' left.latest⟩,
      fun hnot => (behind hnot).opens hl' left.latest⟩

/-- A request that is made at the beginning of 1970. -/
def earlyRequest : Request where
  metadata := { name := some "fence-node-1", uid := some "0f1e", resourceVersion := some "1",
                creationTimestamp := some ⟨0, 0⟩ }
  target := "node-1"

/-- A configuration with a method that demands a minute. -/
def patient : Config where
  name := "racks"
  methods := [{ name := "power", requireAfterSeconds := some 60,
                mechanisms := [{ command := some ["off"] }] }]

/-- A ledger with both. -/
def patientStart : Ledger where
  registry := Registry.insert {} patient
  revisions := [earlyRequest]

/-- After twenty seconds the request has to wait for forty more.  After fifty-nine seconds it still
waits for one second, and after a minute the method is selected.  A job is created then, and it is
time for it. -/
theorem gates_hold_and_wake_minute :
    (∃ (l' : Ledger) (r' : Request), l'.latest? = some r' ∧
      l'.Stays r' {} ⟨59, 0⟩ (.ofSeconds 1) ∧ l'.Opens r' {} ⟨60, 0⟩ (.method 0)) ∧
      ∃ had l' q x job,
        Program.Goes Ledger.solo patientStart (pass {} earlyRequest ⟨60, 0⟩).run (had ++ [x]) l' q ∧
          x.call = .createJob job ∧ ∃ c m, m ∈ c.methods ∧
            m.buildJob c earlyRequest ({} : Settings).dispatch.build = .ok job ∧
            earlyRequest.Admits ⟨60, 0⟩ m := by
  have regular (now : Instant) (h : now.inLeapSecond = false) : earlyRequest.Regular now := by
    refine ⟨h, fun start hstart => ?_⟩
    obtain rfl := Option.some.inj hstart
    rfl
  have hl : patientStart.Versioned := .single rfl rfl
  have shown (t : Instant) : Ledger.solo.shows patientStart t := trivial
  constructor
  · have chosen : patientStart.choice earlyRequest = .ok patient := rfl
    have counts : earlyRequest.validFrom? = some ⟨0, 0⟩ := rfl
    have held : patientStart.Held earlyRequest ⟨20, 0⟩ (.method 0) (.ofSeconds 40) :=
      .method ⟨rfl, nofun⟩ counts (by decide) chosen rfl
    have stays : patientStart.Stays earlyRequest {} ⟨20, 0⟩ (.ofSeconds 40) := held.stays hl rfl
    obtain ⟨had, l', hgoes⟩ := stays.possible
    obtain ⟨-, -, r', latest, later⟩ := (gates_hold_and_wake (regular ⟨20, 0⟩ rfl)).2 hl
      (List.nodup_singleton _) rfl held hgoes
    exact ⟨l', r', latest, ((later (.ofSeconds 39)).1 (by decide)).2,
      (later (.ofSeconds 40)).2 (by decide)⟩
  · have free (job : Job) : ¬ patientStart.Holds job.metadata.name := by
      simp [Ledger.Holds, patientStart]
    have outset : Program.Goes Ledger.solo patientStart (pass {} earlyRequest ⟨60, 0⟩).run []
        patientStart (pass {} earlyRequest ⟨60, 0⟩).run := .begun
    have decided := (((outset.calls (.effect .nodeLabels)).calls (.effect .configs)).looks
      (shown ⟨0, 0⟩)).looks (shown ⟨0, 0⟩)
    have created := decided.calls (.effect (.created (free _)))
    obtain ⟨c, m, -, hm, hbuild, admits⟩ := (gates_hold_and_wake (regular ⟨60, 0⟩ rfl)).1 created
      _ _ _ List.prefix_rfl rfl
    exact ⟨_, _, _, _, _, created, rfl, c, m, hm, hbuild, admits⟩

end NodeFencing
