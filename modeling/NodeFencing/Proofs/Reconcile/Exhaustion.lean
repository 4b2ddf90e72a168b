import NodeFencing.Proofs.Escalation
import NodeFencing.Proofs.Reconcile.Entry
import NodeFencing.Proofs.Reconcile.History
import NodeFencing.Proofs.Registry

/-!
# A request that is given up

A request is given up when there is no method left.  While the registry stays as it is, every
method of its configuration was selected then.  But a method may have succeeded all the same: one
whose success does not stop the escalation is followed by others, and these may fail.  A method
that stops on success, or the last one, has not succeeded.

What is stored of a request tells how far it has come: the methods up to the one in use were
selected, and jobs have succeeded only of methods that others follow.  A pass keeps this, for it
goes on to the next method only if the one in use lets it.

## Main Definitions

* `Config.Continues` — the methods whose success does not end a request
* `Config.place`, `Config.Tried`, `Config.Sober` — what a log says of the methods
* `Registry.Fits` — the statuses that are stored while the registry stays as it is
* `exhaustionContract`, `exhaustionRoute` — passes keep to such statuses
* `Registry.GivesUp` — the requests that are given up

## Main statements

* `Config.Seen.concludes` — what a pass writes because of its decision
* `Registry.GivesUp.tried` — every method of a request that is given up was tried, and which may
  have succeeded
-/

namespace NodeFencing

/-! ### Methods that others follow -/

namespace Config

variable (c : Config)

/-- The name of a method whose success does not end a request: it does not stop on success, and
there is another one behind it. -/
def Continues (name : String) : Prop :=
  ∃ k m, c.methods[k]? = some m ∧ m.name = name ∧ k + 1 < c.methods.length ∧
    m.stopOnSuccess = false

/-- How many methods have had their turn when a method is in use. -/
def place (active : Option String) : Nat :=
  match active.bind c.method? with
  | none => 0
  | some (i, _) => i + 1

/-- The first methods were selected, as a log says. -/
def Tried (n : Nat) (log : List Entry) : Prop :=
  ∀ k m, k < n → c.methods[k]? = some m → .of (some m.name) .methodSelected ∈ log

/-- A log says of no jobs that they have succeeded, but of those of methods that others follow. -/
def Sober (log : List Entry) : Prop :=
  ∀ method detail error, .of method .methodSucceeded detail error ∈ log →
    ∃ name, method = some name ∧ c.Continues name

/-- The same, but the jobs of the method in use have just succeeded. -/
def SoberBut (active : Option String) (state : JobState) (log : List Entry) : Prop :=
  ∀ method detail error, .of method .methodSucceeded detail error ∈ log →
    ∃ name, method = some name ∧ (c.Continues name ∨ state = .succeeded ∧ active = some name)

variable {c} {active : Option String} {state : JobState} {elapsed : Duration}
  {log : List Entry}

/-- The success of a method that stops, or of the last one, ends a request. -/
theorem nextStep_stops {name : String} {i : Nat} {m : Method}
    (hm : c.method? name = some (i, m))
    (stops : m.stopOnSuccess = true ∨ c.methods.length ≤ i + 1) :
    c.nextStep (some name) .succeeded elapsed = .complete m.name := by
  have found : (some name).bind c.method? = some (i, m) := hm
  unfold nextStep
  rw [found]
  refine if_pos ?_
  rcases stops with h | h
  · simp [h]
  · simp [h]

/-- A method that is put in use is the one whose turn is next. -/
theorem place_of_dispatch {index : Nat} {m : Method}
    (h : c.nextStep active state elapsed = .dispatch index m) : c.place active = index := by
  unfold place
  obtain ⟨-, ⟨hnone, rfl⟩ | ⟨i, m₀, hsome, rfl, -⟩⟩ := nextStep_dispatch h
  · rw [hnone]
  · rw [hsome]

/-- When there is no method left, all have had their turn. -/
theorem length_le_place {last : Option String}
    (h : c.nextStep active state elapsed = .exhausted last) :
    c.methods.length ≤ c.place active := by
  unfold place
  obtain ⟨-, hnil⟩ | ⟨i, m₀, hsome, hlength, -⟩ := nextStep_exhausted h
  · simp [hnil]
  · rw [hsome]
    exact hlength

theorem Sober.but (h : c.Sober log) : c.SoberBut active state log := by
  intro method detail error he
  obtain ⟨name, hname, continues⟩ := h method detail error he
  exact ⟨name, hname, .inl continues⟩

/-- If the next step is not to end the request, the method in use is one that others follow, or its
jobs have not succeeded. -/
theorem SoberBut.sober (h : c.SoberBut active state log)
    (known : ∀ name, active = some name → ∃ i m, c.method? name = some (i, m))
    (goesOn : ∀ name, c.nextStep active state elapsed ≠ .complete name) : c.Sober log := by
  intro method detail error he
  obtain ⟨name, hname, continues | ⟨rfl, rfl⟩⟩ := h method detail error he
  · exact ⟨name, hname, continues⟩
  · obtain ⟨i, m, hm⟩ := known name rfl
    obtain ⟨hi, hmname⟩ := method?_some hm
    refine ⟨name, hname, i, m, hi, hmname, ?_, ?_⟩
    · by_contra hlast
      exact goesOn _ (nextStep_stops hm (.inr (by omega)))
    · by_contra hstops
      exact goesOn _ (nextStep_stops hm (.inl (by simpa using hstops)))

/-- What is recorded of other things than success does not matter. -/
theorem Sober.append {entries : List Entry} (h : c.Sober log)
    (other : ∀ method detail error, .of method .methodSucceeded detail error ∉ entries) :
    c.Sober (log ++ entries) := by
  intro method detail error he
  rcases List.mem_append.mp he with hold | hnew
  · exact h method detail error hold
  · exact absurd hnew (other method detail error)

theorem Tried.append {n : Nat} (h : c.Tried n log) (entries : List Entry) :
    c.Tried n (log ++ entries) :=
  fun k m hk hm => List.mem_append_left _ (h k m hk hm)

end Config

/-- An entry of another milestone says of no success. -/
theorem Entry.of_ne_succeeded {result : Result} (h : result ≠ .methodSucceeded)
    {method method' : Option String} {detail detail' : String} {error error' : Option String} :
    Entry.of method .methodSucceeded detail error ≠ .of method' result detail' error' :=
  fun heq => h (Status.message_inj (congrArg Entry.message heq)).1.symm

/-! ### Statuses while the registry stays as it is -/

/-- A configuration that may be selected for some node. -/
def Registry.Selectable (g : Registry) (c : Config) : Prop :=
  ∃ target labels, g.snapshot.select none target labels = .ok c

theorem Registry.Selectable.mem {g : Registry} {c : Config} (h : g.Selectable c) :
    c ∈ g.snapshot := by
  obtain ⟨target, labels, hselect⟩ := h
  exact Snapshot.mem_of_select hselect

/-- A request whose methods have their turn. -/
structure Config.Underway (c : Config) (s : Status) : Prop where
  config : s.config = some c.name
  result : s.result = none
  known : ∀ name, s.activeMethod = some name → ∃ i m, c.method? name = some (i, m)
  tried : c.Tried (c.place s.activeMethod) s.log

/-- A request that is given up: all methods were tried, and which may have succeeded. -/
structure Config.GivenUp (c : Config) (s : Status) : Prop where
  config : s.config = some c.name
  tried : ∀ m ∈ c.methods, .of (some m.name) .methodSelected ∈ s.log
  sober : c.Sober s.log

/-- The statuses that are stored while the registry stays as it is. -/
structure Registry.Fits (g : Registry) (s : Status) : Prop where
  givenUp : s.result = some .givingUp → ∃ c, g.Selectable c ∧ c.GivenUp s
  underway : s.complete = false →
    s = {} ∨ ∃ c, g.Selectable c ∧ c.Underway s ∧ c.Sober s.log

/-- What is known of a status once the jobs of its method are looked at. -/
structure Config.Seen (g : Registry) (c : Config) (s : Status) (state : JobState) : Prop where
  selectable : g.Selectable c
  underway : c.Underway s
  sober : c.SoberBut s.activeMethod state s.log

section Steps

variable {g : Registry} {c : Config} {s s' : Status} {state : JobState} {settings : Settings}
  {r : Request} {elapsed : Duration} {outcome : Outcome}

/-- A request whose methods have their turn may be stored as it is, if no job has just succeeded. -/
theorem Config.Underway.fits (selectable : g.Selectable c) (h : c.Underway s)
    (sober : c.Sober s.log) : g.Fits s where
  givenUp hresult := by cases h.result.symm.trans hresult
  underway _ := .inr ⟨c, selectable, h, sober⟩

/-- To look at the jobs of the method in use. -/
theorem Config.Underway.observing {method : String} {jobs : List Job} (t : Instant)
    (selectable : g.Selectable c) (h : c.Underway s) (sober : c.Sober s.log)
    (hm : s.activeMethod = some method) :
    Config.Seen g c (s.observing method jobs t) (methodState jobs) := by
  have active := s.activeMethod_observing method jobs t
  have keeps (entries : List Entry) (hlog : (s.observing method jobs t).log = s.log ++ entries) :
      c.Underway (s.observing method jobs t) := by
    refine ⟨(s.config_observing method jobs t).trans h.config,
      (s.result_observing method jobs t).trans h.result, ?_, ?_⟩
    · rw [active]
      exact h.known
    · rw [active, hlog]
      exact h.tried.append entries
  rcases s.log_observing t method jobs with hlog | ⟨result, error, hresult, hlog⟩
  · refine ⟨selectable, keeps [] (by rw [hlog, List.append_nil]), ?_⟩
    rw [active, hlog]
    exact sober.but
  · refine ⟨selectable, keeps _ hlog, fun method' detail error' he => ?_⟩
    rw [hlog] at he
    rcases List.mem_append.mp he with hold | hnew
    · exact sober.but method' detail error' hold
    · have heq := List.mem_singleton.mp hnew
      rcases hresult with ⟨rfl, hstate⟩ | rfl
      · exact ⟨method, congrArg Entry.method heq, .inr ⟨hstate, active.trans hm⟩⟩
      · exact absurd heq (Entry.of_ne_succeeded (by decide))

/-- A method is put in use, and the log says what becomes of it. -/
theorem Config.Seen.selects {index : Nat} {m : Method} {result : Result} {detail : String}
    {error : Option String} (hg : g.Sound) (h : Config.Seen g c s state)
    (hnext : c.nextStep s.activeMethod state elapsed = .dispatch index m)
    (config : s'.config = s.config) (same : s'.result = s.result)
    (active : s'.activeMethod = some m.name) (other : result ≠ .methodSucceeded)
    (hlog : s'.log = s.log ++
      [.of (some m.name) .methodSelected, .of (some m.name) result detail error]) : g.Fits s' := by
  have usable := hg.fault? h.selectable.mem
  have hm := (Config.nextStep_dispatch hnext).1
  have found : c.method? m.name = some (index, m) := Config.method?_eq usable hm
  have place : c.place s'.activeMethod = index + 1 := by
    have bound : (some m.name).bind c.method? = some (index, m) := found
    rw [active, Config.place, bound]
  have sober : c.Sober s.log :=
    h.sober.sober h.underway.known fun name hd => nomatch hnext.symm.trans hd
  refine Config.Underway.fits h.selectable ⟨config.trans h.underway.config,
    same.trans h.underway.result, fun name hname => ?_, fun k m' hk hm' => ?_⟩ ?_
  · obtain rfl := Option.some.inj (active.symm.trans hname)
    exact ⟨index, m, found⟩
  · rw [place] at hk
    rw [hlog]
    rcases Nat.lt_succ_iff_lt_or_eq.mp hk with hlt | rfl
    · rw [← Config.place_of_dispatch hnext] at hlt
      exact h.underway.tried.append _ k m' hlt hm'
    · obtain rfl := Option.some.inj (hm.symm.trans hm')
      exact List.mem_append_right _ List.mem_cons_self
  · rw [hlog]
    refine sober.append fun method detail' error' he => ?_
    rcases List.mem_cons.mp he with heq | he
    · exact Entry.of_ne_succeeded (by decide) heq
    · exact Entry.of_ne_succeeded other (List.mem_singleton.mp he)

/-- **What a pass writes because of its decision** is a status that may be stored. -/
theorem Config.Seen.concludes (hg : g.Sound) (h : Config.Seen g c s state)
    (concludes : s.Concludes settings r c (c.nextStep s.activeMethod state elapsed) s' outcome) :
    g.Fits s' := by
  generalize hnext : c.nextStep s.activeMethod state elapsed = decision at concludes
  have sober (hother : ∀ name, decision ≠ .complete name) : c.Sober s.log :=
    h.sober.sober h.underway.known (hnext ▸ hother)
  cases concludes with
  | waits => exact h.underway.fits h.selectable (sober nofun)
  | delays => exact h.underway.fits h.selectable (sober nofun)
  | completes => exact ⟨nofun, nofun⟩
  | exhausts =>
      refine ⟨fun _ => ⟨c, h.selectable, h.underway.config, fun m hm => ?_, ?_⟩, nofun⟩
      · obtain ⟨k, hk⟩ := List.getElem?_of_mem hm
        have hlt := (List.getElem?_eq_some_iff.mp hk).1
        rw [Status.log_finalize]
        exact h.underway.tried.append _ k m (hlt.trans_le (Config.length_le_place hnext)) hk
      · rw [Status.log_finalize]
        refine (sober nofun).append fun method detail error he => ?_
        exact Entry.of_ne_succeeded (by decide) (List.mem_singleton.mp he)
  | aborts =>
      have other : Result.methodFailed ≠ .methodSucceeded := by decide
      exact h.selects hg hnext rfl rfl rfl other (Status.log_aborted _ _ _ _ _)
  | dispatches =>
      have other : Result.jobDispatched ≠ .methodSucceeded := by decide
      exact h.selects hg hnext rfl rfl rfl other (Status.log_begun _ _ _ _ _)

/-- A configuration that is found for a request whose status may be stored. -/
theorem Registry.Fits.choosing (hg : g.Sound) (h : g.Fits (r.status.getD {}))
    (isOpen : r.isComplete = false) {labels : StringMap String} (t : Instant)
    (hselect : g.snapshot.select (r.status.getD {}).config r.target labels = .ok c) :
    g.Selectable c ∧ c.Underway ((r.status.getD {}).choosing c t) ∧
      c.Sober ((r.status.getD {}).choosing c t).log := by
  rw [Request.isComplete_eq] at isOpen
  rcases h.underway isOpen with hnew | ⟨c', selectable, underway, sober⟩
  · rw [hnew] at hselect ⊢
    have other : ({} : Status).config ≠ some c.name := nofun
    have hlog := Status.log_choosing _ t other
    refine ⟨⟨_, _, hselect⟩, ⟨Status.config_choosing _ _ _, ?_, ?_, ?_⟩, ?_⟩
    · rfl
    · exact nofun
    · exact fun k m hk => absurd hk (Nat.not_lt_zero k)
    · rw [hlog]
      intro method detail error he
      exact absurd (List.mem_singleton.mp he) (Entry.of_ne_succeeded (by decide))
  · -- The configuration that was chosen is there, so it is chosen again.
    rw [underway.config, Snapshot.select_chosen (hg.get?_name selectable.mem)] at hselect
    obtain rfl := Except.ok.inj hselect
    have same : (r.status.getD {}).choosing c' t = r.status.getD {} := if_pos underway.config
    rw [same]
    exact ⟨selectable, underway, sober⟩

end Steps

/-! ### Passes -/

/-- Passes store statuses that may be stored while the registry stays as it is. -/
def exhaustionContract (g : Registry) : Contract RequestStore Ledger where
  holds l := l.registry = g ∧ ∀ r ∈ l.revisions, g.Fits (r.status.getD {})
  evolves _ _ := True
  permits _ c := ∀ request revision s, c = .patchStatus request revision s → g.Fits s
  reports := Ledger.Tells
  evolves_refl _ := trivial
  evolves_trans _ _ := trivial
  permits_mono _ h := h

section Passes

variable {g : Registry} {settings : Settings} {r : Request} {l : Ledger}

/-- The route of a pass over a request whose status may be stored. -/
def exhaustionRoute (hg : g.Sound) (h : g.Fits (r.status.getD {})) (settings : Settings)
    (now : Instant) (l : Ledger) : Route (exhaustionContract g) settings r now l where
  chosen c _ s := g.Selectable c ∧ c.Underway s ∧ c.Sober s.log
  seen c _ s state := Config.Seen g c s state
  chosen_mono _ h := h
  seen_mono _ h := h
  reads c _ hread := by
    rintro request revision s rfl
    cases hread
  rejects _ _ _ := by
    rintro _ _ _ ⟨⟩
    exact ⟨nofun, nofun⟩
  chooses _ due found := by
    obtain ⟨labels, snapshot, -, ⟨v, hv, hrep, -⟩, hselect⟩ := found
    obtain rfl : snapshot = v.registry.snapshot := hrep
    rw [hv.holds.1] at hselect
    exact h.choosing hg due.isOpen _ hselect
  idle _ h _ := ⟨h.1, h.2.1, h.2.2.but⟩
  looks _ h hm _ := h.2.1.observing _ h.1 h.2.2 hm
  creates _ _ _ _ := by
    intro request revision s hcall
    cases hcall
  writes _ h concludes _ := by
    rintro _ _ _ ⟨⟩
    exact h.concludes hg concludes

/-- Passes keep the contract, from whichever revision they start. -/
theorem exhaustionContract_keeps (hg : g.Sound) {now : Instant}
    (hl : (exhaustionContract g).holds l) (hr : g.Fits (r.status.getD {})) :
    (reconcile settings r now).run.Keeps (exhaustionContract g) (fun _ _ => True) l := by
  have keeps : Task.Keeps (exhaustionContract g) (fun _ _ => True)
      (reconcile settings r now) l := by
    refine reconcile_keeps (fun _ r => g.Fits (r.status.getD {})) ?_ (fun _ h => h) ?_ ?_
      (fun _ => trivial) hl hr
    · intro _ name request revision s hcall
      cases hcall
    · intro l name r hl hrep
      exact hl.2 r (Ledger.mem_of_latest? (hrep _ rfl))
    · intro l r hl hr
      exact .weaken hl ((exhaustionRoute hg hr settings now l).pass hl) fun _ _ _ _ => trivial
  exact Program.Keeps.weaken hl keeps fun _ _ _ _ => trivial

/-- What others do while the registry stays as it is. -/
def Ledger.Besides (l l' : Ledger) : Prop :=
  l.Around l' ∧ l'.registry = l.registry

/-- A ledger keeps its side of the contract while the registry stays as it is. -/
theorem exhaustionContract_binds (hg : g.Sound) (runs : Settings → Prop) :
    (exhaustionContract g).Binds (fun _ _ => True) (Ledger.rules runs Ledger.Besides) where
  stable _ _ _ _ _ := trivial
  begins hl h := by
    obtain ⟨settings, r, now, -, hr, rfl⟩ := h
    exact exhaustionContract_keeps hg hl (hl.2 r hr)
  answers {l c a l'} hl hpermit hs := by
    have served : l.Serves c a l' := hs
    refine ⟨⟨trivial, ?_⟩, served.tells⟩
    cases served.step with
    | still => exact hl
    | created => exact hl
    | written call latest =>
        refine ⟨hl.1, fun r hr => ?_⟩
        rcases List.mem_append.mp hr with hold | hnew
        · exact hl.2 r hold
        · obtain rfl := List.mem_singleton.mp hnew
          exact hpermit _ _ _ call
  changes {l l'} hl h := by
    obtain ⟨around, hsame⟩ := h
    refine ⟨trivial, hsame.trans hl.1, fun r hr => ?_⟩
    cases around with
    | surroundings => exact hl.2 r hr
    | edited latest same fresh =>
        rcases List.mem_append.mp hr with hold | hnew
        · exact hl.2 r hold
        · obtain rfl := List.mem_singleton.mp hnew
          rw [same]
          exact hl.2 _ (Ledger.mem_of_latest? latest)
    | deleted => exact hl.2 r hr
  shows _ := trivial

end Passes

/-! ### Runs -/

/-- A ledger on which a new request is stored, beside a registry. -/
structure Ledger.New (g : Registry) (l : Ledger) : Prop where
  registry : l.registry = g
  request : ∃ r, l.revisions = [r] ∧ r.metadata.resourceVersion.isSome ∧ r.status.getD {} = {}

/-- A revision that says that a request is given up.  The request is a new one at first.  Copies of
any revision are worked on side by side, while labels and jobs change in any way, and calls fail;
but the registry stays as it is. -/
def Registry.GivesUp (g : Registry) (r : Request) : Prop :=
  ∃ (l : Ledger) (t : Traffic RequestStore (Except TaskError Outcome) Ledger), l.New g ∧
    Traffic.Run (Ledger.rules (fun _ => True) Ledger.Besides) (.quiet l) t ∧
    r ∈ t.site.revisions ∧ (r.status.getD {}).result = some .givingUp

/-- **All methods of a request that is given up were tried**, and none that has succeeded was to end
it. -/
theorem Registry.GivesUp.tried {g : Registry} (hg : g.Sound) {r : Request} (h : g.GivesUp r) :
    ∃ c, g.Selectable c ∧ c.GivenUp (r.status.getD {}) := by
  obtain ⟨l, t, new, hrun, hr, given⟩ := h
  obtain ⟨r₀, hrevisions, -, hstatus⟩ := new.request
  have holds : (exhaustionContract g).holds l := by
    refine ⟨new.registry, fun r hr => ?_⟩
    rw [hrevisions] at hr
    obtain rfl := List.mem_singleton.mp hr
    rw [hstatus]
    exact ⟨nofun, fun _ => .inl rfl⟩
  have quiet : Traffic.Orderly (exhaustionContract g) (fun _ _ => True)
      (Traffic.quiet l : Traffic RequestStore (Except TaskError Outcome) Ledger) := .quiet holds
  have orderly := (quiet.run (exhaustionContract_binds hg _) hrun).2
  exact (orderly.holds.2 r hr).givenUp given

end NodeFencing
