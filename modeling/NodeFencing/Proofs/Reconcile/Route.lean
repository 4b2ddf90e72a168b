import NodeFencing.Proofs.Reconcile.Ledger

/-!
# The way of a pass

The text of a pass is walked through here, for all contracts.  A pass chooses a
configuration, looks at the jobs of the method in use and decides what to do next; with the
decision it is settled what it writes and how it ends.  A route says what is known of the
status at these points, and that every call that the pass then makes is permitted.  These
are conditions on data, without any program in them; from a route it follows that the pass
keeps the contract, and that it ends in one of few ways.

## Main Definitions

* `Status.choosing`, `Status.observing`, `Status.selecting`, `Status.dispatched` — the status at
  the points of a pass
* `Status.Concludes` — what a pass writes because of its decision, and how it ends then
* `Contract.Finds` — the configuration that is found for a request
* `Route`, `Route.Ends` — the conditions under which a pass keeps a contract, and its ends

## Main statements

* `Route.pass` — a pass keeps the contract, and ends in one of its ways
* `reconcile_keeps` — so does a pass that is repeated when it has lost its write
-/

namespace NodeFencing

/-! ### The status during a pass -/

namespace Status

/-- A status once a configuration is noted. -/
def choosing (s : Status) (c : Config) (t : Instant) : Status :=
  if s.config = some c.name then s
  else
    let s := if s.config.isSome then { s with activeMethod := none, activeJob := none } else s
    { s with config := some c.name }.record t none .configSelected c.name

/-- A status once the jobs of the method in use are looked at. -/
def observing (s : Status) (method : String) (jobs : List Job) (t : Instant) : Status :=
  match s.activeJob, methodState jobs with
  | none, .running => { s with activeJob := jobs.findSome? (·.metadata.name) }
  | some _, .succeeded =>
    { s.record t (some method) .methodSucceeded with activeJob := none }
  | some _, .failed =>
    { s.record t (some method) .methodFailed "" (some "job failed") with activeJob := none }
  | some _, .missing =>
    { s.record t (some method) .methodFailed "" (some "job not found") with activeJob := none }
  | _, _ => s

@[simp] theorem complete_choosing (s : Status) (c : Config) (t : Instant) :
    (s.choosing c t).complete = s.complete := by
  unfold choosing
  split
  · rfl
  · split <;> rfl

@[simp] theorem config_choosing (s : Status) (c : Config) (t : Instant) :
    (s.choosing c t).config = some c.name := by
  unfold choosing
  split
  · next config => exact config
  · rfl

/-- To look at the jobs neither ends a request nor changes what is in use. -/
theorem observing_frame (s : Status) (method : String) (jobs : List Job) (t : Instant) :
    (s.observing method jobs t).complete = s.complete ∧
      (s.observing method jobs t).result = s.result ∧
      (s.observing method jobs t).config = s.config ∧
      (s.observing method jobs t).activeMethod = s.activeMethod := by
  unfold observing
  split <;> exact ⟨rfl, rfl, rfl, rfl⟩

@[simp] theorem complete_observing (s : Status) (method : String) (jobs : List Job) (t : Instant) :
    (s.observing method jobs t).complete = s.complete :=
  (s.observing_frame method jobs t).1

@[simp] theorem config_observing (s : Status) (method : String) (jobs : List Job) (t : Instant) :
    (s.observing method jobs t).config = s.config :=
  (s.observing_frame method jobs t).2.2.1

@[simp] theorem result_observing (s : Status) (method : String) (jobs : List Job) (t : Instant) :
    (s.observing method jobs t).result = s.result :=
  (s.observing_frame method jobs t).2.1

@[simp] theorem activeMethod_observing (s : Status) (method : String) (jobs : List Job)
    (t : Instant) : (s.observing method jobs t).activeMethod = s.activeMethod :=
  (s.observing_frame method jobs t).2.2.2

section Observing

variable {s : Status} {method : String} {jobs : List Job} {t : Instant}

/-- A status that does not wait for a job has nothing to record of jobs that have ended. -/
theorem observing_of_none (hjob : s.activeJob = none) (hstate : methodState jobs ≠ .running) :
    s.observing method jobs t = s := by
  unfold observing
  rw [hjob]
  split <;> simp_all

/-- A status that waits for a job has nothing to record as long as it runs. -/
theorem observing_of_running (hjob : s.activeJob.isSome = true)
    (hstate : methodState jobs = .running) : s.observing method jobs t = s := by
  obtain ⟨name, hname⟩ := Option.isSome_iff_exists.mp hjob
  simp [observing, hname, hstate]

theorem observing_of_succeeded (hjob : s.activeJob.isSome = true)
    (hstate : methodState jobs = .succeeded) :
    s.observing method jobs t =
      { s.record t (some method) .methodSucceeded with activeJob := none } := by
  obtain ⟨name, hname⟩ := Option.isSome_iff_exists.mp hjob
  simp [observing, hname, hstate]

theorem observing_of_failed (hjob : s.activeJob.isSome = true)
    (hstate : methodState jobs = .failed) :
    s.observing method jobs t =
      { s.record t (some method) .methodFailed "" (some "job failed") with activeJob := none } := by
  obtain ⟨name, hname⟩ := Option.isSome_iff_exists.mp hjob
  simp [observing, hname, hstate]

end Observing

/-- A status once a method is put in use. -/
def selecting (s : Status) (method : String) (t : Instant) : Status :=
  { s with activeMethod := some method, activeJob := none }.record t (some method) .methodSelected

/-- A status once the job of a method is created. -/
def dispatched (s : Status) (method job : String) (t : Instant) : Status :=
  { s with activeJob := some job }.record t (some method) .jobDispatched job

end Status

/-- Whether a call only reads. -/
def RequestCall.isRead : RequestCall → Bool
  | configs | nodeLabels _ | methodJobs .. | getRequest _ => true
  | createJob _ | patchStatus .. => false

variable {W : Type} {K : Contract RequestStore W} {w : W} {s : Status}

/-! ### Parts of a pass -/

/-- What is made of the time. -/
theorem stamp_keeps {α : Type} (f : Instant → α) (hw : K.holds w) :
    Task.Keeps K (fun w' a => K.Leads w w' ∧ ∃ t, a = f t) (do return f (← Task.now)) w := by
  refine .bind hw (.now (fun w' _ => K.Leads w w') fun w' _ hlead _ => hlead) ?_
  intro w' t hlead _
  exact .pure ⟨hlead, t, rfl⟩

theorem choose_keeps (c : Config) (hw : K.holds w) :
    Task.Keeps K (fun _ s' => ∃ t, s' = s.choosing c t) (choose s c) w := by
  unfold choose Status.choosing
  split
  · exact .pure ⟨default, rfl⟩
  · exact .weaken hw (stamp_keeps _ hw) fun _ _ _ h => h.2

/-- Without a method in use there is nothing to look at. -/
theorem observe_idle {name : String} (hm : s.activeMethod = none) :
    observe name s = pure (s, .missing) := by
  unfold observe
  rw [hm]

/-- With a method in use, its jobs are looked at. -/
theorem observe_keeps {name method : String} (hw : K.holds w) (hm : s.activeMethod = some method)
    (hread : K.permits w (.methodJobs name method)) :
    Task.Keeps K (fun w' o => ∃ jobs t, K.Told w w' (.methodJobs name method) (.ok jobs) ∧
        o = (s.observing method jobs t, methodState jobs)) (observe name s) w := by
  obtain ⟨complete, result, config, activeMethod, activeJob, updates⟩ := s
  obtain rfl : activeMethod = some method := hm
  have asked : Task.Keeps K (fun w' jobs => K.Told w w' (.methodJobs name method) (.ok jobs))
      (ExceptT.mk (RequestStore.methodJobs name method)) w := by
    refine Program.Keeps.weaken hw (.ask hread) ?_
    rintro w' _ _ htold jobs rfl
    exact htold
  refine .bind hw asked fun w' jobs hlead htold => ?_
  -- Whatever is recorded of the jobs, it is recorded at one time.
  have recorded (f : Instant → Status)
      (hf : ∀ t, f t = Status.observing ⟨complete, result, config, some method, activeJob, updates⟩
        method jobs t) :
      Task.Keeps K (fun w' o => ∃ jobs t, K.Told w w' (.methodJobs name method) (.ok jobs) ∧
        o = (Status.observing ⟨complete, result, config, some method, activeJob, updates⟩
          method jobs t, methodState jobs)) (do return (f (← Task.now), methodState jobs)) w' := by
    refine .weaken hlead.holds (stamp_keeps (fun t => (f t, methodState jobs)) hlead.holds) ?_
    rintro w'' _ hlead' ⟨_, t, rfl⟩
    exact ⟨jobs, t, htold.mono (.refl hw) hlead', by rw [hf]⟩
  dsimp only
  split
  · next hstate => exact .pure ⟨jobs, default, htold, by simp only [Status.observing, hstate]⟩
  · next hstate =>
      exact recorded _ fun t => by simp only [Status.observing, hstate]
  · next hstate =>
      exact recorded _ fun t => by simp only [Status.observing, hstate]
  · next hstate =>
      exact recorded _ fun t => by simp only [Status.observing, hstate]
  · next hrunning hsucceeded hfailed hmissing =>
      refine .pure ⟨jobs, default, htold, ?_⟩
      simp only [Status.observing]

/-- A status is written if it has changed, and where this succeeds the answer has said so. -/
theorem persist_keeps {settings : Settings} {r : Request} {new : Status} (hw : K.holds w)
    (hwrite : K.permits w (.patchStatus r.name r.metadata.resourceVersion new)) :
    Task.Keeps K (fun w' _ => s = new ∨
        K.Told w w' (.patchStatus r.name r.metadata.resourceVersion new) (.ok ()))
      (persist settings r s new) w := by
  unfold persist
  split
  · next hsame => exact .pure (.inl hsame)
  · have written : Task.Keeps K (fun w' (result : Except TaskError Unit) => result = .ok () →
          K.Told w w' (.patchStatus r.name r.metadata.resourceVersion new) (.ok ()))
        (ExceptT.mk <| Program.retry settings.retry.backoff <|
          (RequestStore.patchStatus r.name r.metadata.resourceVersion new).bind fun answer =>
            .done (settled TaskError.isConflict answer)) w := by
      refine Program.Keeps.retry _ hw fun w' hlead => ?_
      refine .bind hlead.holds (.ask (K.permits_mono hlead.evolves hwrite)) ?_
      rintro w'' answer hlead' htold result hr rfl
      cases answer with
      | ok => exact htold.mono hlead (.refl hlead'.holds)
      | error e =>
          change (if e.isConflict then _ else _) = _ at hr
          split at hr <;> cases hr
    refine .bind hw written fun w' result _ htold => ?_
    exact fun _ hr => .inr (htold hr)

/-- A job is created, and where this succeeds some answer has said so. -/
theorem createJob_keeps {settings : Settings} {job : Job} (hw : K.holds w)
    (hcreate : K.permits w (.createJob job)) :
    Task.Keeps K
      (fun w' _ => ∃ a, K.Told w w' (.createJob job) a ∧ RequestCall.saysCreated a = true)
      (createJob settings job) w := by
  refine Program.Keeps.retry _ hw fun w' hlead => ?_
  have permitted := K.permits_mono hlead.evolves hcreate
  refine .bind hlead.holds (.ask permitted) fun w'' a hlead' htold => ?_
  have told := htold.mono hlead (.refl hlead'.holds)
  cases a with
  | ok job => exact fun _ _ => ⟨_, told, rfl⟩
  | error e =>
      intro _ hr
      by_cases he : e.meansExists = true
      · exact ⟨_, told, he⟩
      · simp [he] at hr

/-! ### Decisions -/

/-- How long a request has counted. -/
def Request.counted (r : Request) (now : Instant) : Duration :=
  now.since (r.validFrom?.getD now)

/-- A request that is open, and for which it is not too early. -/
structure Request.Due (r : Request) (now : Instant) : Prop where
  isOpen : r.isComplete = false
  reached : ∀ gate, r.gate? = some gate → ¬ now < gate

/-- What a pass writes because of its decision, and how it ends then.  The status is the one that it
has in hand when the jobs were looked at. -/
inductive Status.Concludes (settings : Settings) (r : Request) (c : Config) (s : Status) :
    Decision → Status → Outcome → Prop
  | waits {method} :
      Concludes settings r c s (.wait method) s (.requeue settings.dispatch.jobPoll)
  | delays {index remaining} :
      Concludes settings r c s (.delay index remaining) s (.requeue remaining)
  | completes {method t} : Concludes settings r c s (.complete method)
      (s.finalize t .success ("fenced by " ++ method)) .done
  | exhausts {last t} : Concludes settings r c s (.exhausted last)
      (s.finalize t .givingUp "all methods failed") .done
  | aborts {index m e t t'} (unbuilt : m.buildJob c r settings.dispatch.build = .error e) :
      Concludes settings r c s (.dispatch index m)
        ((s.selecting m.name t).record t' (some m.name) .methodFailed "" (some e.message))
        (.requeue escalationDelay)
  | dispatches {index m job t t'} (built : m.buildJob c r settings.dispatch.build = .ok job) :
      Concludes settings r c s (.dispatch index m)
        ((s.selecting m.name t).dispatched m.name (r.jobName m.name) t')
        (.requeue settings.dispatch.jobPoll)

/-! ### Routes -/

/-- The configuration that is found for a request by what was answered between two times. -/
def Contract.Finds (K : Contract RequestStore W) (w w' : W) (r : Request)
    (found : Except FencingError Config) : Prop :=
  ∃ labels snapshot, K.Told w w' (.nodeLabels r.target) (.ok labels) ∧
    K.Told w w' .configs snapshot ∧
    Snapshot.select snapshot (r.status.getD {}).config r.target labels = found

/-- The conditions under which a pass keeps a contract, from some time on. -/
structure Route (K : Contract RequestStore W) (settings : Settings) (r : Request) (now : Instant)
    (w : W) where
  /-- What is known of a status once a configuration is chosen. -/
  chosen : Config → W → Status → Prop
  /-- What is known of it once the jobs of its method are looked at, and of their state. -/
  seen : Config → W → Status → JobState → Prop
  chosen_mono : ∀ {w₁ w₂ c s}, K.Leads w₁ w₂ → chosen c w₁ s → chosen c w₂ s
  seen_mono : ∀ {w₁ w₂ c s state}, K.Leads w₁ w₂ → seen c w₁ s state → seen c w₂ s state
  /-- Calls that only read are permitted. -/
  reads : ∀ {w'} (c : RequestCall), K.Leads w w' → c.isRead = true → K.permits w' c
  /-- A request for which no configuration is found may be ended. -/
  rejects : ∀ {w' e t}, K.Leads w w' → r.Due now → K.Finds w w' r (.error e) →
    K.permits w' (.patchStatus r.name r.metadata.resourceVersion
      ((r.status.getD {}).finalize t .noConfig "" (some e.message)))
  chooses : ∀ {w' c t}, K.Leads w w' → r.Due now → K.Finds w w' r (.ok c) →
    chosen c w' ((r.status.getD {}).choosing c t)
  idle : ∀ {w' c s}, K.Leads w w' → chosen c w' s → s.activeMethod = none → seen c w' s .missing
  looks : ∀ {w' c s method jobs t}, K.Leads w w' → chosen c w' s → s.activeMethod = some method →
    K.reports w' (.methodJobs r.name method) (.ok jobs) →
    seen c w' (s.observing method jobs t) (methodState jobs)
  /-- The job of a method that is to be put in use may be created. -/
  creates : ∀ {w' c s state index m job}, K.Leads w w' → seen c w' s state →
    c.nextStep s.activeMethod state (r.counted now) = .dispatch index m →
    m.buildJob c r settings.dispatch.build = .ok job → K.permits w' (.createJob job)
  /-- What the decision demands may be written, once the job is created if there is to be one. -/
  writes : ∀ {w' c s state s' outcome}, K.Leads w w' → seen c w' s state →
    s.Concludes settings r c (c.nextStep s.activeMethod state (r.counted now)) s' outcome →
    (∀ index m job, c.nextStep s.activeMethod state (r.counted now) = .dispatch index m →
      m.buildJob c r settings.dispatch.build = .ok job →
      ∃ a, K.Told w w' (.createJob job) a ∧ RequestCall.saysCreated a = true) →
    K.permits w' (.patchStatus r.name r.metadata.resourceVersion s')

namespace Route

variable {settings : Settings} {r : Request} {now : Instant} {c : Config} {state : JobState}
  {w₁ : W}

/-- How a pass may end that has taken its route: the request was at rest, it is too early, the
request was rejected, or what was decided is written. -/
inductive Ends (P : Route K settings r now w) (w' : W) : Outcome → Prop
  | resting (h : r.isComplete = true) : Ends P w' .done
  | early {gate} (hgate : r.gate? = some gate) (h : now < gate) :
      Ends P w' (.requeue (gate.since now))
  | rejected {e : FencingError} {t}
      (told : K.Told w w' (.patchStatus r.name r.metadata.resourceVersion
        ((r.status.getD {}).finalize t .noConfig "" (some e.message))) (.ok ())) : Ends P w' .done
  | concluded {c s state s' outcome} (due : r.Due now) (seen : P.seen c w' s state)
      (concludes : s.Concludes settings r c (c.nextStep s.activeMethod state (r.counted now)) s'
        outcome)
      (written : r.status.getD {} = s' ∨
        K.Told w w' (.patchStatus r.name r.metadata.resourceVersion s') (.ok ())) :
      Ends P w' outcome

variable (P : Route K settings r now w)

/-- What was decided is written. -/
theorem conclude {s' : Status} {outcome : Outcome} (h₁ : K.Leads w w₁) (due : r.Due now)
    (hseen : P.seen c w₁ s state)
    (hconcl : s.Concludes settings r c (c.nextStep s.activeMethod state (r.counted now)) s' outcome)
    (hcreated : ∀ index m job, c.nextStep s.activeMethod state (r.counted now) = .dispatch index m →
      m.buildJob c r settings.dispatch.build = .ok job →
      ∃ a, K.Told w w₁ (.createJob job) a ∧ RequestCall.saysCreated a = true) :
    Task.Keeps K P.Ends (do persist settings r (r.status.getD {}) s'; return outcome) w₁ := by
  have permitted := P.writes h₁ hseen hconcl hcreated
  refine .bind h₁.holds (persist_keeps h₁.holds permitted) fun w' _ h' hwritten => .pure ?_
  exact .concluded due (P.seen_mono h' hseen) hconcl
    (hwritten.imp_right fun told => told.mono h₁ (.refl h'.holds))

/-- The same where no job is to be created. -/
theorem conclude_still {s' : Status} {outcome : Outcome} (h₁ : K.Leads w w₁) (due : r.Due now)
    (hseen : P.seen c w₁ s state)
    (hconcl : s.Concludes settings r c (c.nextStep s.activeMethod state (r.counted now)) s' outcome)
    (still : ∀ index m job, c.nextStep s.activeMethod state (r.counted now) = .dispatch index m →
      m.buildJob c r settings.dispatch.build ≠ .ok job) :
    Task.Keeps K P.Ends (do persist settings r (r.status.getD {}) s'; return outcome) w₁ :=
  P.conclude h₁ due hseen hconcl
    fun index m job hnext hbuild => absurd hbuild (still index m job hnext)

/-- A method is put in use. -/
theorem dispatch {index : Nat} {m : Method} (h₁ : K.Leads w w₁) (due : r.Due now)
    (hseen : P.seen c w₁ s state)
    (hnext : c.nextStep s.activeMethod state (r.counted now) = .dispatch index m) :
    Task.Keeps K P.Ends (NodeFencing.dispatch settings r (r.status.getD {}) s c m) w₁ := by
  unfold NodeFencing.dispatch
  refine .bind h₁.holds (.now (fun w' _ => K.Leads w₁ w') fun w' _ hlead _ => hlead) ?_
  intro w₂ t _ h₂
  have hseen₂ := P.seen_mono h₂ hseen
  cases hbuild : m.buildJob c r settings.dispatch.build with
  | error e =>
      refine .bind h₂.holds (.now (fun w' _ => K.Leads w₂ w') fun w' _ hlead _ => hlead) ?_
      intro w₃ t' _ h₃
      refine P.conclude_still ((h₁.trans h₂).trans h₃) due (P.seen_mono h₃ hseen₂)
        (hnext ▸ .aborts hbuild) fun index' m' job hnext' hbuild' => ?_
      obtain ⟨rfl, rfl⟩ := Decision.dispatch.inj (hnext.symm.trans hnext')
      cases hbuild.symm.trans hbuild'
  | ok job =>
      have permitted := P.creates (h₁.trans h₂) hseen₂ hnext hbuild
      refine .bind h₂.holds (createJob_keeps h₂.holds permitted) ?_
      rintro w₃ _ h₃ ⟨a, htold, hcreated⟩
      refine .bind h₃.holds (.now (fun w' _ => K.Leads w₃ w') fun w' _ hlead _ => hlead) ?_
      intro w₄ t' _ h₄
      have told := htold.mono (h₁.trans h₂) h₄
      refine P.conclude (((h₁.trans h₂).trans h₃).trans h₄) due (P.seen_mono (h₃.trans h₄) hseen₂)
        (hnext ▸ .dispatches hbuild) fun index' m' job' hnext' hbuild' => ?_
      obtain ⟨rfl, rfl⟩ := Decision.dispatch.inj (hnext.symm.trans hnext')
      obtain rfl := Except.ok.inj (hbuild.symm.trans hbuild')
      exact ⟨a, told, hcreated⟩

/-- The jobs are looked at. -/
theorem observe (h₁ : K.Leads w w₁) (hchosen : P.chosen c w₁ s) :
    Task.Keeps K (fun w' o => P.seen c w' o.1 o.2) (NodeFencing.observe r.name s) w₁ := by
  cases hm : s.activeMethod with
  | none =>
      rw [observe_idle hm]
      exact .pure (P.idle h₁ hchosen hm)
  | some method =>
      have hread : K.permits w₁ (.methodJobs r.name method) := P.reads _ h₁ rfl
      refine .weaken h₁.holds (observe_keeps h₁.holds hm hread) ?_
      rintro w' _ _ ⟨jobs, t, ⟨v, hv, hrep, hw'⟩, rfl⟩
      exact P.seen_mono hw' (P.looks (h₁.trans hv) (P.chosen_mono hv hchosen) hm hrep)

/-- The next step is taken. -/
theorem proceed (h₁ : K.Leads w w₁) (due : r.Due now) (hchosen : P.chosen c w₁ s) :
    Task.Keeps K P.Ends (NodeFencing.proceed settings r now (r.status.getD {}) s c) w₁ := by
  refine .bind h₁.holds (P.observe h₁ hchosen) ?_
  rintro w₂ ⟨s₂, state⟩ h₂ hseen
  dsimp only at hseen ⊢
  have h := h₁.trans h₂
  have stamped : Task.Keeps K (fun w' _ => K.Leads w₂ w')
      (ExceptT.lift Program.now : RequestTask Instant) w₂ :=
    .now _ fun w' _ hlead _ => hlead
  generalize hdecision : c.nextStep s₂.activeMethod state _ = decision
  have hnext : c.nextStep s₂.activeMethod state (r.counted now) = decision := hdecision
  cases decision with
  | wait method =>
      exact P.conclude_still h due hseen (hnext ▸ .waits)
        fun _ _ _ hd => nomatch hnext.symm.trans hd
  | delay index remaining =>
      exact P.conclude_still h due hseen (hnext ▸ .delays)
        fun _ _ _ hd => nomatch hnext.symm.trans hd
  | complete method =>
      refine .bind h₂.holds stamped fun w₃ t _ h₃ => ?_
      exact P.conclude_still (h.trans h₃) due (P.seen_mono h₃ hseen) (hnext ▸ .completes)
        fun _ _ _ hd => nomatch hnext.symm.trans hd
  | exhausted last =>
      refine .bind h₂.holds stamped fun w₃ t _ h₃ => ?_
      exact P.conclude_still (h.trans h₃) due (P.seen_mono h₃ hseen) (hnext ▸ .exhausts)
        fun _ _ _ hd => nomatch hnext.symm.trans hd
  | dispatch index m => exact P.dispatch h due hseen hnext

/-- One pass over a request that is open and valid. -/
theorem advance (hw : K.holds w) (due : r.Due now) :
    Task.Keeps K P.Ends (NodeFencing.advance settings r now) w := by
  have labelled : Task.Keeps K
      (fun w' labels => K.Told w w' (.nodeLabels r.target) (.ok labels))
      (ExceptT.mk (RequestStore.nodeLabels r.target)) w := by
    refine Program.Keeps.weaken hw (.ask (P.reads (.nodeLabels r.target) (.refl hw) rfl)) ?_
    rintro w' _ _ htold labels rfl
    exact htold
  refine .bind hw labelled fun w₁ labels h₁ hlabels => ?_
  refine .bind h₁.holds (.lift (.ask (P.reads .configs h₁ rfl))) fun w₂ snapshot h₂ hconfigs => ?_
  have found : K.Finds w w₂ r
      (Snapshot.select snapshot (r.status.getD {}).config r.target labels) :=
    ⟨labels, snapshot, hlabels.mono (.refl hw) h₂, hconfigs.mono h₁ (.refl h₂.holds), rfl⟩
  have h := h₁.trans h₂
  cases hselect : Snapshot.select snapshot (r.status.getD {}).config r.target labels with
  | error e =>
      refine .bind h₂.holds (.now (fun w' _ => K.Leads w₂ w') fun w' _ hlead _ => hlead) ?_
      intro w₃ t _ h₃
      have permitted := K.permits_mono h₃.evolves (P.rejects (t := t) h due (hselect ▸ found))
      refine .bind h₃.holds (persist_keeps h₃.holds permitted) fun w₄ _ h₄ hwritten => .pure ?_
      rcases hwritten with hsame | told
      · have isOpen : (r.status.getD {}).complete = false := r.isComplete_eq.symm.trans due.isOpen
        rw [hsame] at isOpen
        cases isOpen
      · exact .rejected (told.mono (h.trans h₃) (.refl h₄.holds))
  | ok c =>
      refine .bind h₂.holds (choose_keeps c h₂.holds) ?_
      rintro w₃ _ h₃ ⟨t, rfl⟩
      exact P.proceed (h.trans h₃) due
        (P.chosen_mono h₃ (P.chooses h due (hselect ▸ found)))

/-- **One pass** keeps a contract for which there is a route, and ends in one of its ways. -/
theorem pass (hw : K.holds w) : Task.Keeps K P.Ends (NodeFencing.pass settings r now) w := by
  unfold NodeFencing.pass
  split
  · next hcomplete => exact .pure (.resting hcomplete)
  · next hopen =>
      have hopen : r.isComplete = false := by simpa using hopen
      split
      · next gate hgate =>
          split
          · next hearly => exact .pure (.early hgate hearly)
          · next hlate =>
              exact P.advance hw ⟨hopen, fun _ h => Option.some.inj (hgate.symm.trans h) ▸ hlate⟩
      · next hgate => exact P.advance hw ⟨hopen, fun _ h => nomatch hgate.symm.trans h⟩

end Route

/-! ### A pass that is repeated -/

/-- **A pass that is repeated** from the latest revision when it has lost its write keeps a contract
if passes over all copies do from which they may start.  It ends as one of them does, or with the
answer that the request is gone. -/
theorem reconcile_keeps {settings : Settings} {r : Request} {now : Instant}
    (knows : W → Request → Prop) {post : W → Outcome → Prop}
    (reads : ∀ {w} name, K.permits w (.getRequest name))
    (mono : ∀ {w w' r}, K.Leads w w' → knows w r → knows w' r)
    (latest : ∀ {w name r}, K.holds w → K.reports w (.getRequest name) (.ok (some r)) → knows w r)
    (once : ∀ {w r}, K.holds w → knows w r → Task.Keeps K post (pass settings r now) w)
    (gone : ∀ {w₀ w name}, K.Told w₀ w (.getRequest name) (.ok none) → post w .done)
    (hw : K.holds w) (hr : knows w r) : Task.Keeps K post (reconcile settings r now) w := by
  refine Program.Keeps.bind hw (once hw hr) fun w₁ result h₁ hpost => ?_
  cases result with
  | ok outcome => exact hpost
  | error e =>
      dsimp only
      split
      · refine Program.Keeps.bind h₁.holds (.ask (reads r.name)) ?_
        rintro w₂ answer h₂ htold
        match answer with
        | .error e => exact fun _ ha => nomatch ha
        | .ok none =>
            rintro outcome ⟨⟩
            exact gone htold
        | .ok (some latest') =>
            obtain ⟨v, hv, hrep, hw₂⟩ := htold
            exact once h₂.holds (mono hw₂ (latest hv.holds hrep))
      · exact fun _ ha => nomatch ha

end NodeFencing
