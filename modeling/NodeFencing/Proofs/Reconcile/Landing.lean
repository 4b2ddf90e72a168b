import NodeFencing.Proofs.Method.Job
import NodeFencing.Proofs.Program.Exchange
import NodeFencing.Proofs.Reconcile.Entry
import NodeFencing.Proofs.Reconcile.History

/-!
# A pass changes the status as a whole or not at all

A pass makes several calls, and any of them may fail.  Where a call that fails has had no
effect, a pass that fails has left the status of its request as it was.  A status is written
once at most, with everything that the pass has found out, and nothing is done behind it.

So nothing is said too early either: a job is created before the status that tells of it is
written, and is there when this status is stored.

## Main Definitions

* `Ledger.Tries` — what a call does when it may fail, but then has no effect
* `Ledger.Meanwhile` — what others do to a ledger while a pass is under way
* `RequestCall.SaysWritten` — the answer by which a status counts as written
* `Ledger.Accounts` — whatever a status newly says to be dispatched has a job

## Main statements

* `reconcile_endsOn` — a pass is over once its status is written
* `Ledger.Tries.written` — a call that changes the latest revision
* `landingGuide` — what is written tells only of jobs that are there
* `reconcile_whole` — a pass changes the status as a whole or not at all
-/

namespace NodeFencing

/-! ### Calls that fail without an effect -/

namespace Ledger

variable {honest : Prop} {l l' : Ledger} {c : RequestCall}

/-- What a call does when it may also fail, but then has no effect.  If the answers are honest, a
failure to create a job that means that it exists is true. -/
inductive Tries (honest : Prop) (l : Ledger) (c : RequestCall) : c.Answer → Ledger → Prop
  | effect {a l'} (h : Effect l c a l') : Tries honest l c a l'
  | failed {e} (fallible : c ≠ .configs)
      (exists_of : honest → ∀ job, c = .createJob job → e.meansExists = true →
        l.Holds job.metadata.name) :
      Tries honest l c (RequestMemory.failed e c) l

theorem Tries.step {a : c.Answer} (h : Tries honest l c a l') : l.Step c l' := by
  cases h with
  | effect h => exact h.step
  | failed => exact .still

/-- Honest answers are true. -/
theorem Tries.tells {a : c.Answer} (h : Tries honest l c a l') (hhonest : honest) :
    l'.Tells c a := by
  cases h with
  | effect h => exact h.tells
  | failed fallible exists_of =>
      have served : Serves l c (RequestMemory.failed _ c) l :=
        .failed fallible (.inl rfl) (exists_of hhonest)
      exact served.tells

/-- What others do to a ledger while a pass is under way: anything, except that they keep the past
of the request and delete no job. -/
structure Meanwhile (l l' : Ledger) : Prop where
  past : l.revisions <+: l'.revisions
  jobs : ∀ {name}, l.Holds name → l'.Holds name

/-- A ledger on which a pass is made alone, while calls fail and others go on. -/
def trial (honest : Prop) : Rules RequestStore (Except TaskError Outcome) Ledger where
  begins _ _ := False
  answers := Tries honest
  changes := Meanwhile

theorem Meanwhile.refl (l : Ledger) : l.Meanwhile l :=
  ⟨List.prefix_rfl, id⟩

theorem Meanwhile.trans {l'' : Ledger} (h : l.Meanwhile l') (h' : l'.Meanwhile l'') :
    l.Meanwhile l'' :=
  ⟨h.past.trans h'.past, fun hold => h'.jobs (h.jobs hold)⟩

/-- No call takes a revision or a job away. -/
theorem Step.meanwhile (h : l.Step c l') : l.Meanwhile l' := by
  cases h with
  | still => exact .refl l
  | created =>
      exact ⟨List.prefix_rfl, fun ⟨j, hj, hname⟩ => ⟨j, List.mem_append_left _ hj, hname⟩⟩
  | written => exact ⟨List.prefix_append _ _, id⟩

end Ledger

/-! ### The end of a pass -/

/-- The answer by which a status counts as written. -/
def RequestCall.SaysWritten : (c : RequestCall) → c.Answer → Prop
  | .patchStatus .., a => a = .ok ()
  | .configs, _ | .nodeLabels _, _ | .methodJobs .., _ | .createJob _, _ | .getRequest _, _ => False

/-- A task that writes no status. -/
abbrev Task.Writeless {α : Type} (t : RequestTask α) : Prop :=
  Task.EndsOn (I := RequestStore) RequestCall.SaysWritten (fun _ => False) t

/-- A task that is over once a status is written. -/
abbrev Task.EndsWritten {α : Type} (t : RequestTask α) : Prop :=
  Task.EndsOn (I := RequestStore) RequestCall.SaysWritten (fun _ => True) t

section Text

variable {settings : Settings} {r : Request} {now : Instant} {old s : Status} {c : Config}

theorem persist_endsOn (new : Status) : Task.EndsWritten (persist settings r old new) := by
  unfold persist
  split
  · trivial
  · have written : Task.EndsOn (I := RequestStore) RequestCall.SaysWritten
        (fun w : Except TaskError Unit => w = .ok ())
        (ExceptT.mk <| Program.retry settings.retry.backoff <|
          (RequestStore.patchStatus r.name r.metadata.resourceVersion new).bind fun answer =>
            .done (settled TaskError.isConflict answer)) := by
      refine Program.EndsOn.retry _ ?_
      have asked : (RequestStore.patchStatus r.name r.metadata.resourceVersion new).EndsOn
          RequestCall.SaysWritten (fun a => a = .ok ()) := .ask fun _ h => h
      refine asked.bind ?_ fun _ => trivial
      rintro _ rfl
      exact ⟨_, rfl, _, rfl, rfl⟩
    refine written.bind ?_ fun _ => trivial
    rintro _ rfl
    exact ⟨(), rfl, trivial⟩

/-- A write with the outcome of a pass behind it. -/
theorem write_endsOn (new : Status) (outcome : Outcome) :
    Task.EndsWritten (do persist settings r old new; return outcome) :=
  (persist_endsOn new).bind (fun _ _ => ⟨outcome, rfl, trivial⟩) fun _ => trivial

theorem stamp_writeless {α : Type} (f : Instant → α) :
    Task.Writeless (do return f (← Task.now)) :=
  Task.EndsOn.now.after fun _ => trivial

theorem observe_writeless (name : String) : Task.Writeless (observe name s) := by
  unfold observe
  split
  · trivial
  · next method _ =>
      have asked : Task.Writeless (ExceptT.mk (RequestStore.methodJobs name method)) :=
        Program.EndsOn.askAside fun _ => id
      refine asked.after fun jobs => ?_
      dsimp only
      split
      · trivial
      · exact stamp_writeless _
      · exact stamp_writeless _
      · exact stamp_writeless _
      · trivial

theorem choose_writeless : Task.Writeless (choose s c) := by
  unfold choose
  split
  · trivial
  · exact stamp_writeless _

theorem createJob_writeless (job : Job) : Task.Writeless (createJob settings job) := by
  refine Program.EndsOn.retry _ ?_
  have asked : (RequestStore.createJob job).EndsOn RequestCall.SaysWritten (fun _ => False) :=
    .askAside fun _ => id
  refine asked.after fun answer => ?_
  cases answer with
  | ok job => trivial
  | error e => trivial

theorem dispatch_endsOn (m : Method) : Task.EndsWritten (dispatch settings r old s c m) := by
  unfold dispatch
  refine Task.EndsOn.now.after fun _ => ?_
  cases m.buildJob c r settings.dispatch.build with
  | error e => exact Task.EndsOn.now.after fun _ => write_endsOn _ _
  | ok job =>
      refine (createJob_writeless job).after fun _ => ?_
      exact Task.EndsOn.now.after fun _ => write_endsOn _ _

theorem proceed_endsOn : Task.EndsWritten (proceed settings r now old s c) := by
  refine (observe_writeless r.name).after fun observed => ?_
  dsimp only
  split
  · exact write_endsOn _ _
  · exact write_endsOn _ _
  · exact Task.EndsOn.now.after fun _ => write_endsOn _ _
  · exact Task.EndsOn.now.after fun _ => write_endsOn _ _
  · exact dispatch_endsOn _

theorem advance_endsOn : Task.EndsWritten (advance settings r now) := by
  have labelled : Task.Writeless (ExceptT.mk (RequestStore.nodeLabels r.target)) :=
    Program.EndsOn.askAside fun _ => id
  have configured : Task.Writeless (ExceptT.lift RequestStore.configs) :=
    fun _ => ⟨fun h => h.elim, trivial⟩
  refine labelled.after fun labels => configured.after fun snapshot => ?_
  cases Snapshot.select snapshot (r.status.getD {}).config r.target labels with
  | error e => exact Task.EndsOn.now.after fun _ => write_endsOn _ _
  | ok c => exact choose_writeless.after fun _ => proceed_endsOn

theorem pass_endsOn : Task.EndsWritten (pass settings r now) := by
  unfold pass
  split
  · trivial
  · split
    · split
      · trivial
      · exact advance_endsOn
    · exact advance_endsOn

/-- **A pass is over once its status is written**, and has succeeded.  It is not repeated then. -/
theorem reconcile_endsOn : Task.EndsWritten (reconcile settings r now) := by
  refine Program.EndsOn.bind pass_endsOn ?_ fun result => ?_
  · rintro _ ⟨outcome, rfl, -⟩
    exact ⟨_, rfl, outcome, rfl, trivial⟩
  · cases result with
    | ok outcome => trivial
    | error e =>
        dsimp only
        split
        · have asked : (RequestStore.getRequest r.name).EndsOn RequestCall.SaysWritten
              (fun _ => False) := .askAside fun _ => id
          refine asked.after fun answer => ?_
          match answer with
          | .error e => trivial
          | .ok none => trivial
          | .ok (some latest) => exact pass_endsOn
        · trivial

end Text

/-! ### What is written -/

namespace Ledger

variable {honest : Prop} {l l' : Ledger} {c : RequestCall} {r : Request} {s : Status}

/-- A call that changes the latest revision of the request writes a status over it, and says so. -/
theorem Tries.written {a : c.Answer} (h : Tries honest l c a l') (hne : l'.latest? ≠ l.latest?) :
    c.SaysWritten a ∧ ∃ request revision s latest new, c = .patchStatus request revision s ∧
      l.latest? = some latest ∧
      (revision = none ∨ revision = latest.metadata.resourceVersion) ∧
      l' = l.add (latest.written s new) := by
  cases h with
  | effect h =>
      cases h with
      | landed latest same fresh => exact ⟨rfl, _, _, _, _, _, rfl, latest, same, rfl⟩
      | _ => exact absurd rfl hne
  | failed => exact absurd rfl hne

/-- The log of a status continues that of a copy of the request, and whatever it newly says to be
dispatched has a job. -/
def Accounts (l : Ledger) (r : Request) (s : Status) : Prop :=
  ∃ entries, s.log = r.log ++ entries ∧
    ∀ method name, Entry.dispatched method name ∈ entries → l.Holds (some name)

theorem Accounts.mono (h : l.Accounts r s) (hl : l.Meanwhile l') : l'.Accounts r s := by
  obtain ⟨entries, hlog, hheld⟩ := h
  exact ⟨entries, hlog, fun method name hmem => hl.jobs (hheld method name hmem)⟩

theorem Accounts.of_silent (h : s.SilentSince r) : l.Accounts r s := by
  obtain ⟨entries, hlog, hsilent⟩ := h
  exact ⟨entries, hlog, fun method name hmem => absurd hmem (hsilent method name)⟩

theorem Accounts.finalizes (h : s.SilentSince r) {result : Result} {t : Instant}
    {detail : String} {error : Option String} (hresult : result ≠ .jobDispatched) :
    l.Accounts r (s.finalize t result detail error) :=
  .of_silent (h.finalizes hresult t detail error)

/-- A job that is there may be said to be dispatched. -/
theorem Accounts.dispatched (h : s.SilentSince r) {job : String} (held : l.Holds (some job))
    (method : String) (t : Instant) : l.Accounts r (s.dispatched method job t) := by
  obtain ⟨entries, hlog, hname⟩ := h.dispatched method job t
  exact ⟨entries, hlog, fun m name hmem => hname m name hmem ▸ held⟩

/-- A copy from which a pass may start: the one that it was given, or a revision that is stored. -/
def Gives (l : Ledger) (given r : Request) : Prop :=
  r = given ∨ r ∈ l.revisions

theorem Gives.mono {given : Request} (h : l.Gives given r) (hl : l.Meanwhile l') :
    l'.Gives given r :=
  h.imp_right fun hr => hl.past.subset hr

end Ledger

/-- Under this contract a status is written only over a copy from which the pass started, and it
accounts for what it says. -/
def landingContract (given : Request) : Contract RequestStore Ledger where
  holds _ := True
  evolves := Ledger.Meanwhile
  permits l
    | .patchStatus request revision s => ∃ base, l.Gives given base ∧ request = base.name ∧
        revision = base.metadata.resourceVersion ∧ l.Accounts base s
    | _ => True
  reports := Ledger.Tells
  evolves_refl := .refl
  evolves_trans := .trans
  permits_mono {l l' c} hl h := by
    cases c with
    | patchStatus request revision s =>
        obtain ⟨base, hbase, hname, hrevision, haccounts⟩ := h
        exact ⟨base, hbase.mono hl, hname, hrevision, haccounts.mono hl⟩
    | _ => trivial

/-- Passes keep the contract, from the copy that was given or from a stored one. -/
def landingGuide (given : Request) (settings : Settings) :
    Guide (landingContract given) settings where
  knows l r := l.Gives given r
  chosen r _ l s := l.Gives given r ∧ s.SilentSince r
  seen r _ l s _ := l.Gives given r ∧ s.SilentSince r
  knows_mono hlead h := h.mono hlead.evolves
  chosen_mono hlead h := ⟨h.1.mono hlead.evolves, h.2⟩
  seen_mono hlead h := ⟨h.1.mono hlead.evolves, h.2⟩
  reads c hc := by
    cases c with
    | patchStatus => cases hc
    | _ => trivial
  latest _ hrep := .inr (Ledger.mem_of_latest? (hrep _ rfl))
  rejects hr _ _ := ⟨_, hr, rfl, rfl, .finalizes .start (by decide)⟩
  chooses hr _ _ := ⟨hr, Status.SilentSince.start.choosing _ _⟩
  idle h _ := h
  looks h _ _ := ⟨h.1, h.2.observing _ _ _⟩
  keeps h := ⟨_, h.1, rfl, rfl, .of_silent h.2⟩
  completes h _ := ⟨_, h.1, rfl, rfl, .finalizes h.2 (by decide)⟩
  exhausts h _ := ⟨_, h.1, rfl, rfl, .finalizes h.2 (by decide)⟩
  aborts h _ _ :=
    ⟨_, h.1, rfl, rfl,
      .of_silent ((h.2.selecting _ _).records (Status.log_record _ _ _ _ _ _) nofun)⟩
  creates _ _ _ := trivial
  dispatches h _ hbuild htold hcreated := by
    obtain ⟨v, -, hrep, hw⟩ := htold
    have held := (Method.buildJob_ok hbuild).1.name ▸ hw.evolves.jobs (hrep hcreated)
    exact ⟨_, h.1, rfl, rfl, .dispatched (h.2.selecting _ _) held _ _⟩

/-- With honest answers a ledger keeps its side of the contract. -/
theorem landingContract_binds (given : Request) {honest : Prop} (hhonest : honest) :
    (landingContract given).Binds (fun _ _ => True) (Ledger.trial honest) where
  stable _ _ _ _ _ := trivial
  begins _ h := h.elim
  answers _ _ h := ⟨⟨h.step.meanwhile, trivial⟩, h.tells hhonest⟩
  changes _ h := ⟨h, trivial⟩
  shows _ := trivial

/-! ### Runs -/

/-- A call that leaves the stored request as it was. -/
def Exchange.Stays (x : Exchange RequestStore Ledger) : Prop :=
  x.behind.latest? = x.before.latest?

/-- **A pass changes the status as a whole or not at all.**  A pass is made over any copy of a
request, at any time and with any settings, while others go on and calls fail in any way without an
effect.  If it fails, all its calls have left the stored request as it was.  If a call of it changes
the stored request, this is its last one, no earlier one has, and it succeeds at once.  If the
answers are honest, what is then stored tells of no dispatch whose job is not there, beyond what
the copy tells from which the pass was made; and this copy is the latest revision if the revisions
can be told apart and the pass was given one of them. -/
theorem reconcile_whole {honest : Prop} {settings : Settings} {r : Request} {now : Instant}
    {l₀ l : Ledger} {had : List (Exchange RequestStore Ledger)}
    {p : Program RequestStore (Except TaskError Outcome)}
    (h : Program.Goes (Ledger.trial honest) l₀ (reconcile settings r now).run had l p) :
    (∀ e, p = .done (.error e) → ∀ x ∈ had, x.Stays) ∧
    (∀ past x rest, had = past ++ x :: rest → ¬ x.Stays →
      rest = [] ∧ (∀ y ∈ past, y.Stays) ∧ ∃ outcome, p = .done (.ok outcome)) ∧
    (honest → ∀ x ∈ had, ¬ x.Stays → ∃ base latest s new,
      x.before.Gives r base ∧
      x.call = .patchStatus base.name base.metadata.resourceVersion s ∧
      x.before.latest? = some latest ∧ x.behind = x.before.add (latest.written s new) ∧
      x.behind.Accounts base s ∧
      (x.before.Versioned → r ∈ x.before.revisions → base = latest)) := by
  have written (x) (hx : x ∈ had) (hne : ¬ x.Stays) := (h.answered x hx).written hne
  have ends {past x rest} (hhad : had = past ++ x :: rest) (hne : ¬ x.Stays) :=
    reconcile_endsOn.ends h hhad
      (written x (hhad ▸ List.mem_append_right _ List.mem_cons_self) hne).1
  refine ⟨fun e he x hx => ?_, fun past x rest hhad hne => ?_, fun hhonest x hx hne => ?_⟩
  · by_contra hne
    obtain ⟨past, rest, hhad⟩ := List.append_of_mem hx
    obtain ⟨-, -, _, hdone, outcome, rfl, -⟩ := ends hhad hne
    cases he.symm.trans hdone
  · obtain ⟨hrest, hpast, _, hdone, outcome, rfl, -⟩ := ends hhad hne
    refine ⟨hrest, fun y hy => ?_, outcome, hdone⟩
    by_contra hne'
    exact hpast y hy (written y (hhad ▸ List.mem_append_left _ hy) hne').1
  · obtain ⟨-, request, revision, s, latest, new, hcall, hlatest, same, hbehind⟩ := written x hx hne
    have keeps : (reconcile settings r now).run.Keeps (landingContract r) (fun _ _ => True) l₀ :=
      (landingGuide r settings).reconcile trivial (.inl rfl)
    have permitted := (keeps.goes (landingContract_binds r hhonest) trivial h).2.2 x hx
    rw [hcall] at permitted
    obtain ⟨base, hbase, rfl, rfl, haccounts⟩ := permitted
    have grown : x.before.Meanwhile x.behind := (h.answered x hx).step.meanwhile
    refine ⟨base, latest, s, new, hbase, hcall, hlatest, hbehind, haccounts.mono grown, ?_⟩
    intro versioned hr
    refine versioned.pinned hlatest ?_ same
    rcases hbase with rfl | hstored
    · exact hr
    · exact hstored

/-- The job is created, and the status that tells of it is stored when its write is repeated. -/
theorem reconcile_whole_repeated :
    ∃ past x l outcome, Program.Goes (Ledger.trial True) dispatchStart
        (reconcile {} newRequest ⟨0, 0⟩).run (past ++ [x]) l (.done (.ok outcome)) ∧
      past.length = 4 ∧ (∀ y ∈ past, y.Stays) ∧ ¬ x.Stays ∧
      ∃ s, x.call = .patchStatus "fence-node-1" (some "1") s ∧ x.behind.Accounts newRequest s := by
  have shown (l : Ledger) : (Ledger.trial True).shows l ⟨0, 0⟩ := trivial
  have failing (l : Ledger) (s : Status) : Ledger.Tries True l
      (.patchStatus "fence-node-1" (some "1") s) (.error (.api (.refused 500))) l :=
    .failed nofun fun _ _ h => nomatch h
  have started : Program.Goes (Ledger.trial True) dispatchStart
      (reconcile {} newRequest ⟨0, 0⟩).run [] dispatchStart (reconcile {} newRequest ⟨0, 0⟩).run :=
    .begun
  have looked := (started.calls (.effect .nodeLabels)).calls (.effect .configs)
  have created := ((looked.looks (shown _)).looks (shown _)).calls
    (.effect (.created (dispatchStart_free _)))
  have refused := (created.looks (shown _)).calls (failing _ _)
  have landed := refused.pauses.calls (.effect (.landed rfl (.inr rfl) (dispatchStart_fresh _)))
  obtain ⟨past, x, l, p, run, hlength, hstored, changed⟩ : ∃ past x l p,
      Program.Goes (Ledger.trial True) dispatchStart (reconcile {} newRequest ⟨0, 0⟩).run
        (past ++ [x]) l p ∧
      past.length = 4 ∧ x.before.revisions = [newRequest] ∧ ¬ x.Stays :=
    ⟨_, _, _, _, landed, rfl, rfl, fun h => nomatch congrArg (Option.bind · fun r => r.status) h⟩
  obtain ⟨-, whole, accounts⟩ := reconcile_whole run
  obtain ⟨-, stays, outcome, rfl⟩ := whole past x [] rfl changed
  obtain ⟨base, _, s, _, hbase, hcall, -, -, haccounts, -⟩ :=
    accounts trivial x (List.mem_append_right _ (List.mem_singleton_self _)) changed
  obtain rfl : base = newRequest := by simpa [Ledger.Gives, hstored] using hbase
  exact ⟨past, x, l, outcome, run, hlength, stays, changed, s, hcall, haccounts⟩

end NodeFencing
