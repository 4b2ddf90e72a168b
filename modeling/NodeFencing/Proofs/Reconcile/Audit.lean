import NodeFencing.Proofs.Reconcile.Log

/-!
# What is recorded of a request

Whatever copies of a request are worked on, and although calls fail with and without an
effect, every status that is stored has a log that tells a story: the methods in their
order, each once, each with its outcome at most once.  If there is no configuration for
the node, the log says just this.

A pass starts from a copy that may be old, and adds to the log of this copy.  What it adds
is right even so, because the story of an old copy is still true of the jobs, which have
only gone on since then.  So nothing has to be known of the revision over which it writes.

## Main Definitions

* `Mandate.Accounts` — a status that is stored for a request with a configuration
* `auditContract`, `rejectContract` — the promises with a configuration, and without one
* `Opening` — how a request begins

## Main statements

* `auditGuide`, `rejectGuide` — passes keep the contracts
* `log_tells_story` — the log of every status that is stored in a run
-/

namespace NodeFencing

/-! ### Requests with a configuration -/

namespace Mandate

/-- A status that is stored for a request: it can go on, or its log is complete. -/
inductive Accounts (u : Mandate) (l : Ledger) (s : Status) : Prop
  | goesOn {courses} (complete : s.complete = false) (config : s.config = some u.config.name)
      (recounts : u.Recounts l s courses)
  | ended {courses ending} (complete : s.complete = true) (logged : u.Logged s courses ending)

variable {u : Mandate} {l l' : Ledger} {s : Status}

theorem Accounts.mono (h : u.Accounts l s) (hl : l.Grows l') : u.Accounts l' s := by
  cases h with
  | goesOn complete config recounts => exact .goesOn complete config (recounts.mono hl)
  | ended complete logged => exact .ended complete logged

theorem Accounts.logged (h : u.Accounts l s) : ∃ courses ending, u.Logged s courses ending := by
  cases h with
  | goesOn complete _ recounts => exact ⟨_, _, recounts.logged complete⟩
  | ended _ logged => exact ⟨_, _, logged⟩

end Mandate

/-- Under this contract a job is created only for a method that is reached, and a status is written
only if its log is the one to be told. -/
def auditContract (u : Mandate) (start : Ledger) : Contract RequestStore Ledger where
  holds l := u.Orderly start l ∧ ∀ r ∈ l.revisions, ∀ s, r.status = some s → u.Accounts l s
  evolves l l' := l.Grows l'
  permits l c := (orderContract u start).permits l c ∧
    ∀ request revision s, c = .patchStatus request revision s → u.Accounts l s
  reports := Ledger.Tells
  evolves_refl := Ledger.Grows.refl
  evolves_trans := Ledger.Grows.trans
  permits_mono hl h := ⟨(orderContract u start).permits_mono hl h.1,
    fun request revision s hc => (h.2 request revision s hc).mono hl⟩

section Guide

variable {u : Mandate} {start l l' : Ledger}

/-! What is promised here includes what is promised of the order of methods. -/

theorem auditContract_leads (h : (auditContract u start).Leads l l') :
    (orderContract u start).Leads l l' :=
  ⟨h.evolves, h.holds.1⟩

theorem auditContract_told {c : RequestCall} {a : c.Answer}
    (h : (auditContract u start).Told l l' c a) : (orderContract u start).Told l l' c a := by
  obtain ⟨v, hv, hrep, hv'⟩ := h
  exact ⟨v, auditContract_leads hv, hrep, auditContract_leads hv'⟩

theorem auditContract_finds {r : Request} {found : Except FencingError Config}
    (h : (auditContract u start).Finds l l' r found) :
    (orderContract u start).Finds l l' r found := by
  obtain ⟨labels, snapshot, hlabels, hconfigs, hselect⟩ := h
  exact ⟨labels, snapshot, auditContract_told hlabels, auditContract_told hconfigs, hselect⟩

theorem auditContract_permits {request : String} {revision : Option String} {s : Status}
    (h : u.Stands l s) (hs : u.Accounts l s) :
    (auditContract u start).permits l (.patchStatus request revision s) := by
  refine ⟨h, ?_⟩
  rintro _ _ _ ⟨⟩
  exact hs

/-- Passes keep the contract, from whichever revision they start. -/
def auditGuide (hu : u.Outset start) : Guide (auditContract u start) u.settings where
  knows l r := (orderGuide hu).knows l r ∧ ∀ s, r.status = some s → u.Accounts l s
  chosen r c l s := (orderGuide hu).chosen r c l s ∧ s.complete = false ∧
    ∃ courses, u.Recounts l s courses
  seen r c l s state := (orderGuide hu).seen r c l s state ∧ s.complete = false ∧
    ∃ courses, u.Recounts l s courses ∧ state = Mandate.lastState courses
  knows_mono hlead h := ⟨(orderGuide hu).knows_mono (auditContract_leads hlead) h.1,
    fun s hs => (h.2 s hs).mono hlead.evolves⟩
  chosen_mono := fun hlead ⟨h, hopen, courses, recounts⟩ =>
    ⟨(orderGuide hu).chosen_mono (auditContract_leads hlead) h, hopen, courses,
      recounts.mono hlead.evolves⟩
  seen_mono := fun hlead ⟨h, hopen, courses, recounts, hstate⟩ =>
    ⟨(orderGuide hu).seen_mono (auditContract_leads hlead) h, hopen, courses,
      recounts.mono hlead.evolves, hstate⟩
  reads c hc := ⟨(orderGuide hu).reads c hc, fun _ _ _ h => by subst h; cases hc⟩
  latest hl hrep :=
    ⟨(orderGuide hu).latest hl.1 hrep, hl.2 _ (Ledger.mem_of_latest? (hrep _ rfl))⟩
  rejects := fun ⟨⟨_, kin, stands⟩, _⟩ _ hfinds =>
    nomatch orderContract_finds hu kin stands (auditContract_finds hfinds)
  chooses {w w' r c t} h hopen hfinds := by
    obtain rfl := Except.ok.inj
      (orderContract_finds hu h.1.2.1 h.1.2.2 (auditContract_finds hfinds))
    refine ⟨(orderGuide hu).chooses h.1 hopen (auditContract_finds hfinds), ?_⟩
    cases hs : r.status with
    | none => exact ⟨rfl, [], Mandate.recounts_choosing t⟩
    | some s =>
        -- The configuration of a status that can go on is noted already.
        have hcomplete : s.complete = false := by simpa [Request.isComplete, hs] using hopen
        cases h.2 s hs with
        | goesOn _ config recounts =>
            have still : s.choosing u.config t = s := if_pos config
            rw [Option.getD_some, still]
            exact ⟨hcomplete, _, recounts⟩
        | ended complete => exact nomatch complete.symm.trans hcomplete
  idle := fun ⟨h, hopen, courses, recounts⟩ idle => by
    refine ⟨(orderGuide hu).idle h idle, hopen, courses, recounts, ?_⟩
    cases recounts with
    | begun => rfl
    | told _ _ active => exact nomatch idle.symm.trans active
  looks := fun {l r c s method jobs t} ⟨h, hopen, courses, recounts⟩ hmethod hrep => by
    have hjobs : jobs = l.jobs.filter (·.isFor u.request.name method) :=
      h.2.1.name ▸ hrep jobs rfl
    obtain ⟨courses', recounts', hstate⟩ := recounts.observing h.1 hu hmethod t
    exact ⟨(orderGuide hu).looks h hmethod hrep, (s.complete_observing _ _ _).trans hopen,
      courses', hjobs ▸ recounts', hjobs ▸ hstate⟩
  keeps := fun ⟨h, hopen, _, recounts, _⟩ =>
    auditContract_permits ((orderGuide hu).keeps h) (.goesOn hopen h.2.2.2 recounts)
  completes := fun ⟨h, _, _, recounts, hstate⟩ hnext => by
    obtain ⟨-, rfl, -, -⟩ := id h
    subst hstate
    exact auditContract_permits ((orderGuide hu).completes h hnext)
      (.ended rfl (recounts.success hnext _))
  exhausts := fun ⟨h, _, _, recounts, hstate⟩ hnext => by
    obtain ⟨-, rfl, -, -⟩ := id h
    subst hstate
    exact auditContract_permits ((orderGuide hu).exhausts h hnext)
      (.ended rfl (recounts.givingUp hu.usable hnext _))
  aborts := fun ⟨h, hopen, _, recounts, hstate⟩ hnext hbuild => by
    obtain ⟨kin, rfl, -, config⟩ := id h
    subst hstate
    obtain ⟨hm, ended⟩ := recounts.goesOn hu.usable hnext
    exact auditContract_permits ((orderGuide hu).aborts h hnext hbuild)
      (.goesOn hopen config (recounts.aborts hm ended (kin.buildJob _ _ _ ▸ hbuild) _ _))
  creates := fun ⟨h, _⟩ hnext hbuild =>
    ⟨(orderGuide hu).creates h hnext hbuild, fun _ _ _ hc => nomatch hc⟩
  dispatches := fun {_ w' r c s _ _ _ m _ _ t t'} h hnext hbuild htold hcreated => by
    obtain ⟨hseen, hopen, _, recounts, rfl⟩ := h
    obtain ⟨kin, rfl, -, config⟩ := id hseen
    obtain ⟨hm, ended⟩ := recounts.goesOn hu.usable hnext
    obtain ⟨v, hv, hrep, hlead⟩ := htold
    have hholds := (hrep hcreated).mono hlead.evolves
    rw [(Method.buildJob_ok hbuild).1.name, kin.jobName] at hholds
    have written : u.Accounts w'
        ((s.selecting m.name t).dispatched m.name (r.jobName m.name) t') := by
      rw [kin.jobName]
      exact .goesOn hopen config (recounts.dispatches hm ended hholds t t')
    have htold := auditContract_told ⟨v, hv, hrep, hlead⟩
    exact auditContract_permits ((orderGuide hu).dispatches hseen hnext hbuild htold hcreated)
      written

/-- A ledger keeps its side of the contract. -/
theorem auditContract_binds (hu : u.Outset start) :
    (auditContract u start).Binds (fun _ _ => True)
      (Ledger.rules (· = u.settings) Ledger.Ages) where
  stable _ _ _ _ _ := trivial
  begins hl h := by
    obtain ⟨_, r, now, rfl, hr, rfl⟩ := h
    exact (auditGuide hu).reconcile hl ⟨⟨hl.1, hl.1.kin r hr, hl.1.stands r hr⟩, hl.2 r hr⟩
  answers hl hpermit hs := by
    obtain ⟨hlead, hrep⟩ := (orderContract_binds hu).answers hl.1 hpermit.1 hs
    refine ⟨⟨hlead.evolves, hlead.holds, fun r hr s hstatus => ?_⟩, hrep⟩
    rcases hs.status_of_mem hr with hold | ⟨request, revision, s', r₀, new, hc, -, rfl⟩
    · exact (hl.2 r hold s hstatus).mono hlead.evolves
    · obtain rfl : s' = s := Option.some.inj hstatus
      exact (hpermit.2 request revision s' hc).mono hlead.evolves
  changes hl h := by
    have hlead := (orderContract_binds hu).changes hl.1 h
    refine ⟨hlead.evolves, hlead.holds, fun r hr s hstatus => ?_⟩
    obtain ⟨r₀, hr₀, -, same⟩ := h.status_of_mem hr
    exact (hl.2 r₀ hr₀ s (same ▸ hstatus)).mono hlead.evolves
  shows _ := trivial

end Guide

/-! ### Requests without a configuration -/

/-- The configuration that a ledger has for a new request. -/
def Ledger.selection (l : Ledger) (r : Request) : Except FencingError Config :=
  l.registry.snapshot.select none r.target (l.labels r.target)

/-- A status that says that a request was ended because no configuration is for its node. -/
structure Status.Rejects (s : Status) (e : FencingError) : Prop where
  complete : s.complete = true
  result : s.result = some .noConfig
  log : s.log = [.of none .noConfig "" (some e.message)]

/-- A ledger on which nothing is done for a request, since no configuration is for its node. -/
structure Ledger.Rejecting (start : Ledger) (request : Request) (e : FencingError) (l : Ledger) :
    Prop where
  registry : l.registry = start.registry
  labels : l.labels = start.labels
  kin : ∀ r ∈ l.revisions, request.Kin r
  rejects : ∀ r ∈ l.revisions, ∀ s, r.status = some s → s.Rejects e

/-- Another revision may be stored if its status says the same. -/
theorem Ledger.Rejecting.add {start l : Ledger} {request r : Request} {e : FencingError}
    (h : start.Rejecting request e l) (kin : request.Kin r)
    (rejects : ∀ s, r.status = some s → s.Rejects e) : start.Rejecting request e (l.add r) := by
  refine ⟨h.registry, h.labels, fun r' hr' => ?_, fun r' hr' => ?_⟩
  · rcases List.mem_append.mp hr' with hold | hnew
    · exact h.kin r' hold
    · exact List.mem_singleton.mp hnew ▸ kin
  · rcases List.mem_append.mp hr' with hold | hnew
    · exact h.rejects r' hold
    · exact List.mem_singleton.mp hnew ▸ rejects

/-- Under this contract a request is ended, and nothing else is done. -/
def rejectContract (start : Ledger) (request : Request) (e : FencingError) :
    Contract RequestStore Ledger where
  holds := start.Rejecting request e
  evolves _ _ := True
  permits _
    | .createJob _ => False
    | .patchStatus _ _ s => s.Rejects e
    | _ => True
  reports := Ledger.Tells
  evolves_refl _ := trivial
  evolves_trans _ _ := trivial
  permits_mono _ h := h

section Guide

variable {start l l' : Ledger} {request : Request} {e : FencingError}

theorem rejectContract_finds (h : start.selection request = .error e) {r : Request}
    {found : Except FencingError Config} (kin : request.Kin r) (new : r.status = none)
    (hfinds : (rejectContract start request e).Finds l l' r found) : found = .error e := by
  obtain ⟨labels, snapshot, ⟨v, hv, hlabels, -⟩, ⟨v', hv', hconfigs, -⟩, hselect⟩ := hfinds
  obtain rfl : labels = v.labels r.target := hlabels labels rfl
  obtain rfl : snapshot = v'.registry.snapshot := hconfigs
  rw [← hselect, hv.holds.labels, hv'.holds.registry, kin.target, new]
  exact h

/-- Passes keep the contract.  They find no configuration, so they do not come to look at jobs. -/
def rejectGuide (h : start.selection request = .error e) (settings : Settings) :
    Guide (rejectContract start request e) settings where
  knows _ r := request.Kin r ∧ ∀ s, r.status = some s → s.Rejects e
  chosen _ _ _ _ := False
  seen _ _ _ _ _ := False
  knows_mono _ h := h
  chosen_mono _ h := h
  seen_mono _ h := h
  reads c hc := by
    cases c with
    | createJob => cases hc
    | patchStatus => cases hc
    | _ => trivial
  latest hl hrep := by
    have hmem := Ledger.mem_of_latest? (hrep _ rfl)
    exact ⟨hl.kin _ hmem, hl.rejects _ hmem⟩
  rejects := fun {_ _ r _ _} ⟨kin, rejects⟩ hopen hfinds => by
    cases hs : r.status with
    | none =>
        obtain rfl := Except.error.inj (rejectContract_finds h kin hs hfinds)
        exact ⟨rfl, rfl, Status.log_finalize _ _ _ _ _⟩
    | some s =>
        have hcomplete : s.complete = false := by simpa [Request.isComplete, hs] using hopen
        exact nomatch (rejects s hs).complete.symm.trans hcomplete
  chooses := fun {_ _ r _ _} ⟨kin, rejects⟩ hopen hfinds => by
    cases hs : r.status with
    | none => exact nomatch rejectContract_finds h kin hs hfinds
    | some s =>
        have hcomplete : s.complete = false := by simpa [Request.isComplete, hs] using hopen
        exact nomatch (rejects s hs).complete.symm.trans hcomplete
  idle h _ := h
  looks h _ _ := h
  keeps h := h.elim
  completes h _ := h.elim
  exhausts h _ := h.elim
  aborts h _ _ := h.elim
  creates h _ _ := h.elim
  dispatches h _ _ _ _ := h.elim

/-- A ledger keeps its side of the contract. -/
theorem rejectContract_binds (h : start.selection request = .error e) (settings : Settings) :
    (rejectContract start request e).Binds (fun _ _ => True)
      (Ledger.rules (· = settings) Ledger.Ages) where
  stable _ _ _ _ _ := trivial
  begins hl hb := by
    obtain ⟨_, r, now, rfl, hr, rfl⟩ := hb
    exact (rejectGuide h _).reconcile hl ⟨hl.kin r hr, hl.rejects r hr⟩
  answers hl hpermit hs := by
    refine ⟨⟨trivial, ?_⟩, hs.tells⟩
    cases hs.step with
    | still => exact hl
    | created call =>
        subst call
        exact hpermit.elim
    | @written _ _ s r new call latest =>
        subst call
        have kin := hl.kin r (Ledger.mem_of_latest? latest)
        refine hl.add ⟨kin.name, kin.uid, kin.inNamespace, kin.target, kin.operation⟩ ?_
        rintro _ ⟨⟩
        exact hpermit
  changes hl hc := by
    refine ⟨trivial, ?_⟩
    cases hc with
    | jobs => exact ⟨hl.registry, hl.labels, hl.kin, hl.rejects⟩
    | edited latest kin same =>
        have hmem := Ledger.mem_of_latest? latest
        exact hl.add ((hl.kin _ hmem).trans kin) (same ▸ hl.rejects _ hmem)
  shows _ := trivial

end Guide

/-! ### Runs -/

/-- A new request: nothing is done for it yet, and where a configuration is for its node, the names
of the jobs differ and none of them is in use. -/
structure Opening (request : Request) (settings : Settings) (start : Ledger) : Prop where
  sound : start.registry.Sound
  revisions : start.revisions = [request]
  new : request.status = none
  distinct : ∀ c, start.selection request = .ok c →
    (c.methods.map fun m => request.jobName m.name).Nodup
  unused : ∀ c, start.selection request = .ok c →
    ∀ j ∈ start.jobs, (Mandate.mk request c settings).Alien j

section Runs

variable {request : Request} {settings : Settings} {start : Ledger}

theorem Opening.outset (h : Opening request settings start) {c : Config}
    (hc : start.selection request = .ok c) : (Mandate.mk request c settings).Outset start :=
  ⟨h.sound, hc, h.distinct c hc, h.revisions, h.new, h.unused c hc⟩

/-- **The log tells the story.**  Copies of any revision of a request are worked on side by side, in
any number and at any time, while the jobs run and calls fail.  The log of every status that is
then stored says that no configuration is for the node, if this is so, and else tells of the first
methods of the configuration, in their order, what has become of each but perhaps the last, and at
the end, once the request has ended, what has become of it. -/
theorem log_tells_story {t : Traffic RequestStore (Except TaskError Outcome) Ledger}
    (h : Opening request settings start)
    (hrun : Traffic.Run (Ledger.rules (· = settings) Ledger.Ages) (.quiet start) t) :
    ∀ r ∈ t.site.revisions, ∀ s, r.status = some s →
      match start.selection request with
      | .error e => s.Rejects e
      | .ok c => s.updates.length ≤ 3 * c.methods.length + 2 ∧
          ∃ courses ending, (Mandate.mk request c settings).Logged s courses ending := by
  intro r hr s hs
  cases hc : start.selection request with
  | error e =>
      have begun : start.Rejecting request e start := by
        refine ⟨rfl, rfl, fun r hr => ?_, fun r hr => ?_⟩
        · obtain rfl : r = request := by simpa [h.revisions] using hr
          exact .refl _
        · obtain rfl : r = request := by simpa [h.revisions] using hr
          simp [h.new]
      have quiet : Traffic.Orderly (rejectContract start request e) (fun _ _ => True)
          (Traffic.quiet start : Traffic RequestStore (Except TaskError Outcome) Ledger) :=
        .quiet begun
      exact (quiet.run (rejectContract_binds hc settings) hrun).2.holds.rejects r hr s hs
  | ok c =>
      have hu := h.outset hc
      have quiet : Traffic.Orderly (auditContract ⟨request, c, settings⟩ start) (fun _ _ => True)
          (Traffic.quiet start : Traffic RequestStore (Except TaskError Outcome) Ledger) := by
        refine .quiet ⟨hu.orderly, fun r hr s hs => ?_⟩
        obtain rfl : r = request := by simpa [h.revisions] using hr
        exact nomatch h.new.symm.trans hs
      have accounts := (quiet.run (auditContract_binds hu) hrun).2.holds.2 r hr s hs
      obtain ⟨courses, ending, logged⟩ := accounts.logged
      exact ⟨logged.length_le, courses, ending, logged⟩

end Runs

namespace Mandate

theorem twoMethods_opening :
    Opening twoMethods.request twoMethods.settings twoMethodsStart where
  sound := twoMethods_outset.sound
  revisions := rfl
  new := rfl
  distinct c hc := by
    obtain rfl : twoMethods.config = c := Except.ok.inj hc
    exact twoMethods_outset.distinct
  unused c hc := by
    obtain rfl : twoMethods.config = c := Except.ok.inj hc
    exact twoMethods_outset.unused

/-- The first method fails while its job is waited for.  The second pass records this and goes on
with the second method in one write, of which it does not learn that it lands. -/
theorem log_tells_story_twoMethods :
    ∃ (t : Traffic RequestStore (Except TaskError Outcome) Ledger) (r : Request) (s : Status),
      Traffic.Run (Ledger.rules (· = twoMethods.settings) Ledger.Ages)
        (.quiet twoMethodsStart) t ∧
      r ∈ t.site.revisions ∧ r.status = some s ∧ s.complete = false ∧
      s.log = twoMethods.story [.failed, .dispatched] ∧
      s.updates.length ≤ 3 * 2 + 2 ∧
      ∃ courses ending, twoMethods.Logged s courses ending := by
  have begins {l : Ledger} {r : Request} (hr : r ∈ l.revisions) :
      (Ledger.rules (· = twoMethods.settings) Ledger.Ages).begins l
        (reconcile {} r ⟨0, 0⟩).run :=
    ⟨{}, r, ⟨0, 0⟩, rfl, hr, rfl⟩
  have shown (l : Ledger) : (Ledger.rules (· = twoMethods.settings) Ledger.Ages).shows l
      ⟨0, 0⟩ := trivial
  have free (job : Job) : ¬ twoMethodsStart.Holds job.metadata.name := by
    simp [Ledger.Holds, twoMethodsStart]
  have fresh (jobs : List Job) : Ledger.Fresh { twoMethodsStart with jobs } (some "2") :=
    ⟨rfl, by simp [twoMethodsStart, twoMethods]⟩
  have nothing : Traffic.Run (Ledger.rules (· = twoMethods.settings) Ledger.Ages)
      (.quiet twoMethodsStart) (.quiet twoMethodsStart) := .refl
  obtain ⟨⟨l₁, running₁⟩, hrun₁, rfl, rfl⟩ := nothing.begins 0 rfl
    (begins (List.mem_singleton_self _)) <|
    .head (.call (.effect .nodeLabels)) <| .head (.call (.effect .configs)) <|
    .head (.clock (shown _)) <| .head (.clock (shown _)) <|
    .head (.call (.effect (.created (free _)))) <| .head (.clock (shown _)) <|
    .single (.call (.effect (.landed rfl (.inr rfl) (fresh _))))
  have fails {l : Ledger} {j : Job} (hl : l.jobs = [j]) (hj : j.status = none) :
      l.Ages { l with jobs := [{ j with status := some { failed := some 1 } }] } := by
    refine .jobs (hl ▸ .cons ⟨rfl, rfl, ?_, ?_⟩ .nil)
    · simp [Job.state, hj]
    · simp [Job.state, hj]
  have other {l : Ledger} {j job : Job} (hl : l.jobs = [j])
      (hne : j.metadata.name ≠ job.metadata.name) : ¬ l.Holds job.metadata.name := by
    simpa [Ledger.Holds, hl] using hne
  have hrun₂ := hrun₁.tail (.change (fails rfl rfl))
  have unseen {l : Ledger} {r : Request} {revision : Option String} {s : Status}
      (latest : l.latest? = some r) (same : revision = r.metadata.resourceVersion)
      (new : l.Fresh (some "3")) :
      Ledger.Serves l (.patchStatus r.name revision s) (.error (.api (.refused 500)))
        (l.add (r.written s (some "3"))) :=
    .failed (by simp) (.inr ⟨.ok (), .landed latest (.inr same) new⟩) (by simp)
  have fresh' {l : Ledger} {r r' : Request} (hl : l.revisions = [r, r'])
      (hr : r.metadata.resourceVersion = some "1") (hr' : r'.metadata.resourceVersion = some "2") :
      l.Fresh (some "3") :=
    ⟨rfl, by simp [hl, hr, hr']⟩
  obtain ⟨t, hrun, hsite, -⟩ := Traffic.Run.begins 1 hrun₂ rfl
    (begins (List.mem_cons_of_mem _ (List.mem_singleton_self _))) <|
    .head (.call (.effect .nodeLabels)) <| .head (.call (.effect .configs)) <|
    .head (.call (.effect .methodJobs)) <| .head (.clock (shown _)) <|
    .head (.clock (shown _)) <|
    .head (.call (.effect (.created (other rfl (by decide))))) <| .head (.clock (shown _)) <|
    .single (.call (unseen rfl rfl (fresh' rfl rfl rfl)))
  have stored : ∃ r s, r ∈ t.site.revisions ∧ r.status = some s ∧ s.complete = false ∧
      s.log = twoMethods.story [.failed, .dispatched] := by
    rw [hsite]
    exact ⟨_, _, List.mem_append_right _ (List.mem_singleton_self _), rfl, rfl, rfl⟩
  obtain ⟨r, s, hr, hs, hopen, hlog⟩ := stored
  exact ⟨t, r, s, hrun, hr, hs, hopen, hlog, log_tells_story twoMethods_opening hrun r hr s hs⟩

end Mandate

end NodeFencing
