import Mathlib.Data.Fintype.EquivFin
import NodeFencing.Proofs.Program.Alone
import NodeFencing.Proofs.Program.Passage
import NodeFencing.Proofs.Reconcile.Route
import NodeFencing.Proofs.Registry

/-!
# The turn of a pass that is alone

If nobody else touches a ledger, what a pass does can be told from the ledger alone.  The
configuration, the state of the jobs and the decision are those that the ledger shows; the
pass then creates at most one job and writes at most one status.  Calls may fail at any time,
before or after their effect; a pass that succeeds nevertheless has done just this.

## Main Definitions

* `Ledger.solo` — the rules of a ledger on which nobody else does anything
* `Ledger.choice`, `Ledger.hand`, `Ledger.decision` — what a ledger shows for a request
* `Ledger.Turn` — what a pass does, as one step

## Main statements

* `pass_turns` — a pass that succeeds alone does its turn, and creates no other job
* `Ledger.Turn.yields` — and it can do so
-/

namespace NodeFencing

/-! ### What a ledger shows -/

namespace Status

variable {s : Status} {name : String} {jobs : List Job}

/-- The state in which jobs show the method in use. -/
def found (s : Status) (name : String) (jobs : List Job) : JobState :=
  match s.activeMethod with
  | none => .missing
  | some method => methodState (jobs.filter (·.isFor name method))

/-- A status once the jobs of the method in use, if there is one, are looked at. -/
def looked (s : Status) (name : String) (jobs : List Job) (t : Instant) : Status :=
  match s.activeMethod with
  | none => s
  | some method => s.observing method (jobs.filter (·.isFor name method)) t

@[simp] theorem activeMethod_looked (t : Instant) :
    (s.looked name jobs t).activeMethod = s.activeMethod := by
  unfold looked
  split
  · rfl
  · exact s.activeMethod_observing _ _ t

@[simp] theorem complete_looked (t : Instant) :
    (s.looked name jobs t).complete = s.complete := by
  unfold looked
  split
  · rfl
  · exact s.complete_observing _ _ t

@[simp] theorem config_looked (t : Instant) : (s.looked name jobs t).config = s.config := by
  unfold looked
  split
  · rfl
  · exact s.config_observing _ _ t

/-- Which method is in use once a configuration is chosen does not depend on the time. -/
theorem activeMethod_choosing (c : Config) (t t' : Instant) :
    (s.choosing c t).activeMethod = (s.choosing c t').activeMethod := by
  unfold choosing
  split
  · rfl
  · split <;> rfl

end Status

namespace Ledger

/-- The rules of a ledger on which nobody else does anything. -/
abbrev solo : Rules RequestStore (Except TaskError Outcome) Ledger :=
  rules (fun _ => False) fun _ _ => False

variable (l : Ledger) (r : Request) (c : Config)

/-- The configuration for a request, as a ledger shows it. -/
def choice : Except FencingError Config :=
  l.registry.snapshot.select (r.status.getD {}).config r.target (l.labels r.target)

/-- The status of a request once its configuration is chosen and the jobs are looked at, each at
some time. -/
def hand (t t' : Instant) : Status :=
  ((r.status.getD {}).choosing c t).looked r.name l.jobs t'

/-- What is to be done next for a request. -/
def decision (now : Instant) : Decision :=
  c.nextStep ((r.status.getD {}).choosing c now).activeMethod
    (((r.status.getD {}).choosing c now).found r.name l.jobs) (r.counted now)

theorem nextStep_hand (now t t' : Instant) :
    c.nextStep (l.hand r c t t').activeMethod
      (((r.status.getD {}).choosing c t).found r.name l.jobs) (r.counted now) =
        l.decision r c now := by
  have active := (r.status.getD {}).activeMethod_choosing c t now
  unfold hand decision Status.found
  rw [Status.activeMethod_looked, active]

/-! ### Effects -/

/-- There is a job of this name afterwards: it was there before, or it is created. -/
def Ensures (job : Job) (l' : Ledger) : Prop :=
  (l.Holds job.metadata.name ∧ l' = l) ∨
    (¬ l.Holds job.metadata.name ∧ l' = { l with jobs := l.jobs ++ [job] })

/-- The job that a decision asks for is there afterwards, and nothing else has changed. -/
def Prepares (settings : Settings) : Decision → Ledger → Prop
  | .dispatch _ m, l' =>
    match m.buildJob c r settings.dispatch.build with
    | .ok job => l.Ensures job l'
    | .error _ => l' = l
  | _, l' => l' = l

/-- A status is stored over a revision, unless it is the one that is there. -/
def Writes (old new : Status) (l' : Ledger) : Prop :=
  (old = new ∧ l' = l) ∨ (old ≠ new ∧ ∃ v, l.Fresh v ∧ l' = l.add (r.written new v))

/-- A status is stored for a request, and nothing else is touched. -/
structure Stored (s : Status) (l' : Ledger) (r' : Request) : Prop where
  latest : l'.latest? = some r'
  status : r'.status.getD {} = s
  same : r' = r ∨ ∃ v, r' = r.written s v
  registry : l'.registry = l.registry
  labels : l'.labels = l.labels
  jobs : l'.jobs = l.jobs
  versioned : l.Versioned → l'.Versioned

/-- What a pass does on a ledger. -/
inductive Turn (settings : Settings) (now : Instant) : Ledger → Outcome → Prop
  | rests (h : r.isComplete = true) : Turn settings now l .done
  | early {gate} (isOpen : r.isComplete = false) (hgate : r.gate? = some gate) (h : now < gate) :
      Turn settings now l (.requeue (gate.since now))
  | rejects {e t l'} (due : r.Due now) (none_chosen : l.choice r = .error e)
      (writes : l.Writes r (r.status.getD {})
        ((r.status.getD {}).finalize t .noConfig "" (some e.message)) l') :
      Turn settings now l' .done
  | concludes {c t t' s' outcome l₁ l'} (due : r.Due now) (chosen : l.choice r = .ok c)
      (concludes : (l.hand r c t t').Concludes settings r c (l.decision r c now) s' outcome)
      (prepares : l.Prepares r c settings (l.decision r c now) l₁)
      (writes : l₁.Writes r (r.status.getD {}) s' l') : Turn settings now l' outcome

/-- The calls of a pass: a job is created only if that is decided. -/
def Calls (settings : Settings) (now : Instant) : RequestCall → Prop
  | .createJob job => r.Due now ∧ ∃ c index m, l.choice r = .ok c ∧
      l.decision r c now = .dispatch index m ∧ m.buildJob c r settings.dispatch.build = .ok job
  | _ => True

variable {l r c}

/-- What is stored behind the latest revision is the latest then. -/
theorem latest?_add {r' : Request} (latest : l.latest? = some r) :
    (l.add r').latest? = some r' := by
  unfold latest? at latest ⊢
  split at latest
  · next present =>
      rw [if_pos (by exact present)]
      exact List.getLast?_concat
  · cases latest

/-- A write over the latest revision stores its status. -/
theorem Writes.stored {s : Status} {l' : Ledger} (latest : l.latest? = some r)
    (h : l.Writes r (r.status.getD {}) s l') : ∃ r', l.Stored r s l' r' := by
  rcases h with ⟨hsame, rfl⟩ | ⟨-, v, fresh, rfl⟩
  · exact ⟨r, latest, hsame, .inl rfl, rfl, rfl, rfl, id⟩
  · exact ⟨r.written s v, latest?_add latest, rfl, .inr ⟨v, rfl⟩, rfl, rfl, rfl,
      fun hl => hl.add fresh⟩

namespace Stored

variable {l' : Ledger} {r' : Request} {s : Status} {now : Instant}

/-- What is written over a request is neither its name nor any of its times. -/
theorem frame (stored : l.Stored r s l' r') :
    r'.name = r.name ∧ r'.gate? = r.gate? ∧ r'.validFrom? = r.validFrom? := by
  rcases stored.same with rfl | ⟨v, rfl⟩
  · exact ⟨rfl, rfl, rfl⟩
  · exact ⟨rfl, rfl, rfl⟩

/-- A request whose configuration is stored gets it again, as long as it is there. -/
theorem choice (stored : l.Stored r s l' r') (config : s.config = some c.name)
    (found : l.registry.snapshot.get? c.name = some c) : l'.choice r' = .ok c := by
  unfold Ledger.choice
  rw [stored.status, config, stored.registry]
  exact Snapshot.select_chosen found

/-- A request that is due remains so unless it is ended. -/
theorem due (stored : l.Stored r s l' r') (isOpen : s.complete = false) (due : r.Due now) :
    r'.Due now where
  isOpen := by
    rw [Request.isComplete_eq, stored.status]
    exact isOpen
  reached gate hgate := due.reached gate (stored.frame.2.1 ▸ hgate)

end Stored

/-- A job changes neither the revisions nor what is read of the registry. -/
theorem Prepares.jobs {settings : Settings} {d : Decision} {l₁ : Ledger}
    (h : l.Prepares r c settings d l₁) : ∃ jobs, l₁ = { l with jobs } := by
  unfold Prepares at h
  split at h
  · split at h
    · rcases h with ⟨-, h⟩ | ⟨-, h⟩
      · exact ⟨l.jobs, h⟩
      · exact ⟨_, h⟩
    · exact ⟨l.jobs, h⟩
  · exact ⟨l.jobs, h⟩

/-- **What a pass does** over a request that is due, once there is a configuration. -/
theorem Turn.decided {settings : Settings} {now : Instant} {l' : Ledger} {outcome : Outcome}
    (latest : l.latest? = some r) (due : r.Due now) (chosen : l.choice r = .ok c)
    (turn : l.Turn r settings now l' outcome) :
    ∃ t t' s' l₁ r', (l.hand r c t t').Concludes settings r c (l.decision r c now) s' outcome ∧
      l.Prepares r c settings (l.decision r c now) l₁ ∧ l₁.Stored r s' l' r' := by
  cases turn with
  | rests h => cases due.isOpen.symm.trans h
  | early _ hgate early => exact (due.reached _ hgate early).elim
  | rejects _ none_chosen => cases chosen.symm.trans none_chosen
  | @concludes _ t t' s' _ l₁ _ _ chosen' concludes prepares writes =>
      obtain rfl := Except.ok.inj (chosen.symm.trans chosen')
      have latest₁ : l₁.latest? = some r := by
        obtain ⟨jobs, rfl⟩ := prepares.jobs
        exact latest
      obtain ⟨r', stored⟩ := writes.stored latest₁
      exact ⟨t, t', s', l₁, r', concludes, prepares, stored⟩

variable (l r c)

/-- There is always a version that no revision has. -/
theorem exists_fresh : ∃ v, l.Fresh v := by
  obtain ⟨v, hv⟩ := Infinite.exists_notMem_finset
    (l.revisions.filterMap (·.metadata.resourceVersion)).toFinset
  refine ⟨some v, rfl, fun r hr hversion => hv ?_⟩
  exact List.mem_toFinset.mpr (List.mem_filterMap.mpr ⟨r, hr, hversion⟩)

theorem exists_writes (old new : Status) : ∃ l', l.Writes r old new l' := by
  by_cases hsame : old = new
  · exact ⟨l, .inl ⟨hsame, rfl⟩⟩
  · obtain ⟨v, fresh⟩ := l.exists_fresh
    exact ⟨_, .inr ⟨hsame, v, fresh, rfl⟩⟩

theorem exists_prepares (settings : Settings) (d : Decision) :
    ∃ l', l.Prepares r c settings d l' := by
  cases d with
  | dispatch index m =>
      cases hbuild : m.buildJob c r settings.dispatch.build with
      | error => exact ⟨l, by simp only [Prepares, hbuild]⟩
      | ok job =>
          simp only [Prepares, hbuild]
          by_cases held : l.Holds job.metadata.name
          · exact ⟨l, .inl ⟨held, rfl⟩⟩
          · exact ⟨_, .inr ⟨held, rfl⟩⟩
  | _ => exact ⟨l, rfl⟩

theorem exists_concludes (settings : Settings) (s : Status) (d : Decision) :
    ∃ s' outcome, s.Concludes settings r c d s' outcome := by
  -- At what time something is recorded does not matter.
  have t : Instant := default
  cases d with
  | wait => exact ⟨_, _, .waits⟩
  | delay => exact ⟨_, _, .delays⟩
  | complete => exact ⟨_, _, .completes (t := t)⟩
  | exhausted => exact ⟨_, _, .exhausts (t := t)⟩
  | dispatch index m =>
      cases hbuild : m.buildJob c r settings.dispatch.build with
      | error e => exact ⟨_, _, @Status.Concludes.aborts _ _ _ _ _ _ _ t t hbuild⟩
      | ok job => exact ⟨_, _, @Status.Concludes.dispatches _ _ _ _ _ _ _ t t hbuild⟩

variable {l r c}

/-- A request that is due, and for which there is a configuration, has a turn. -/
theorem exists_turn {now : Instant} (settings : Settings) (due : r.Due now)
    (chosen : l.choice r = .ok c) : ∃ l' outcome, l.Turn r settings now l' outcome := by
  obtain ⟨s', outcome, concludes⟩ :=
    exists_concludes r c settings (l.hand r c now now) (l.decision r c now)
  obtain ⟨l₁, prepares⟩ := l.exists_prepares r c settings (l.decision r c now)
  obtain ⟨l', writes⟩ := l₁.exists_writes r (r.status.getD {}) s'
  exact ⟨l', outcome, .concludes due chosen concludes prepares writes⟩

end Ledger

/-! ### Parts of a pass -/

section Parts

variable {l l' : Ledger} {r : Request} {settings : Settings} {now : Instant} {α : Type}
  {allowed : RequestCall → Prop}

/-- The contract of programs that only read. -/
def Ledger.still (l : Ledger) : Contract RequestStore Ledger where
  holds := (· = l)
  evolves := Eq
  permits _ c := c.isRead = true
  reports := Ledger.Tells
  evolves_refl _ := rfl
  evolves_trans := Eq.trans
  permits_mono _ h := h

/-- A call that only reads leaves a ledger as it is. -/
theorem Ledger.Serves.read {c : RequestCall} {a : c.Answer} (h : l.Serves c a l')
    (hread : c.isRead = true) : l' = l := by
  cases h.step with
  | still => rfl
  | created call => cases call ▸ hread
  | written call => cases call ▸ hread

/-- A program that only reads leaves a ledger as it is. -/
theorem Task.Keeps.alone {t : RequestTask α} {post : Ledger → α → Prop}
    (reads : ∀ c, c.isRead = true → allowed c) (h : Task.Keeps l.still post t l) :
    Task.Obeys (Ledger.solo.serving (Except TaskError α)) (.alone Ledger allowed)
      (fun l' a => l = l' ∧ post l a) t l := by
  have obeys : t.run.Obeys (Ledger.solo.serving (Except TaskError α)) (.alone Ledger allowed)
      (fun w' result => l.still.holds w' ∧ ∀ a, result = .ok a → post w' a) l := by
    refine Program.Keeps.obeys ?_ (fun {_ c} => reads c) ?_ (fun _ => trivial) rfl h
    · rintro w w' hw rfl
      exact ⟨rfl, hw⟩
    · rintro w c a w' rfl permitted served
      obtain rfl : w' = w := Ledger.Serves.read served permitted
      exact ⟨⟨rfl, rfl⟩, Ledger.Serves.tells served⟩
  refine Program.Obeys.weaken obeys ?_
  rintro w' result ⟨rfl, hpost⟩ a hresult
  exact ⟨rfl, hpost a hresult⟩

/-- A write over the latest revision lands or fails; it may do both. -/
theorem Ledger.Serves.patch {request : String} {revision : Option String} {s : Status}
    {a : RequestCall.Answer (.patchStatus request revision s)} (latest : l.latest? = some r)
    (h : l.Serves (.patchStatus request revision s) a l') :
    ((∃ e, a = .error e) ∧ l' = l) ∨
      ((revision = none ∨ revision = r.metadata.resourceVersion) ∧
        ∃ v, l.Fresh v ∧ l' = l.add (r.written s v)) := by
  have effect {a l'} (h : l.Effect (.patchStatus request revision s) a l') :
      ((∃ e, a = .error e) ∧ l' = l) ∨
        ((revision = none ∨ revision = r.metadata.resourceVersion) ∧
          ∃ v, l.Fresh v ∧ l' = l.add (r.written s v)) := by
    cases h with
    | landed latest' same fresh =>
        obtain rfl := Option.some.inj (latest.symm.trans latest')
        exact .inr ⟨same, _, fresh, rfl⟩
    | refused => exact .inl ⟨⟨_, rfl⟩, rfl⟩
    | gone answer gone => cases latest.symm.trans gone
  cases h with
  | effect h => exact effect h
  | failed fallible h honest =>
      obtain rfl | ⟨a', h⟩ := h
      · exact .inl ⟨⟨_, rfl⟩, rfl⟩
      · exact (effect h).imp_left fun h => ⟨⟨_, rfl⟩, h.2⟩

/-- A status is written once, or the write has failed. -/
theorem persist_alone {old new : Status} (hl : l.Versioned) (latest : l.latest? = some r)
    (writes : ∀ request revision s, allowed (.patchStatus request revision s)) :
    Task.Obeys (Ledger.solo.serving _) (.alone Ledger allowed)
      (fun l' _ => l.Writes r old new l') (persist settings r old new) l := by
  unfold persist
  split
  · next hsame => exact .pure (.inl ⟨hsame, rfl⟩)
  · next hother =>
      -- A write may have landed although it is said to have failed; then the next one is refused,
      -- for the revision that was read is not the latest any more.
      let fit (w : Ledger) := w = l ∨ ∃ v, l.Fresh v ∧ w = l.add (r.written new v)
      let op := (RequestStore.patchStatus r.name r.metadata.resourceVersion new).bind fun answer =>
        .done (settled TaskError.isConflict answer)
      have once (w : Ledger) (hw : fit w) : op.Obeys (Ledger.solo.serving _) (.alone Ledger allowed)
          (fun w' result => (∀ written, result = .ok written → written = .ok () →
            l.Writes r old new w') ∧ ∀ e, result = .error e → fit w') w := by
        rintro _ rfl
        refine ⟨writes _ _ _, fun a w' served => ?_⟩
        have served : w.Serves (.patchStatus r.name r.metadata.resourceVersion new) a w' := served
        have failing (e : TaskError) : (∀ written,
            settled TaskError.isConflict (.error e) = .ok written → written = .ok () →
              l.Writes r old new w') := by
          rintro _ hresult rfl
          change (if e.isConflict then _ else _) = _ at hresult
          split at hresult <;> cases hresult
        rcases hw with rfl | ⟨v, fresh, rfl⟩
        · rcases served.patch latest with ⟨⟨e, rfl⟩, rfl⟩ | ⟨-, v, fresh, rfl⟩
          · exact ⟨failing e, fun _ _ => .inl rfl⟩
          · exact ⟨fun _ _ _ => .inr ⟨hother, v, fresh, rfl⟩, fun _ _ => .inr ⟨v, fresh, rfl⟩⟩
        · rcases served.patch (Ledger.latest?_add latest) with ⟨⟨e, rfl⟩, rfl⟩ | ⟨same, -⟩
          · exact ⟨failing e, fun _ _ => .inr ⟨v, fresh, rfl⟩⟩
          · have hr : r ∈ l.revisions := Ledger.mem_of_latest? latest
            rcases same with hnone | hsame
            · have named := hl.named r hr
              rw [hnone] at named
              cases named
            · exact absurd hsame (fresh.2 r hr)
      refine Task.Obeys.bind (Program.Obeys.retry _ once (.inl rfl)) fun w' written hwritten => ?_
      exact fun _ hr => hwritten hr

/-- There is a job of its name once a job is created. -/
theorem createJob_alone {job : Job} (creates : allowed (.createJob job)) :
    Task.Obeys (Ledger.solo.serving _) (.alone Ledger allowed) (fun l' _ => l.Ensures job l')
      (createJob settings job) l := by
  -- A job may have been created although this is said to have failed; then there is one.
  let fit (w : Ledger) := w = l ∨
    (¬ l.Holds job.metadata.name ∧ w = { l with jobs := l.jobs ++ [job] })
  have ensured {w : Ledger} (hw : fit w) (h : w.Holds job.metadata.name) : l.Ensures job w := by
    rcases hw with rfl | hnew
    · exact .inl ⟨h, rfl⟩
    · exact .inr hnew
  have unchanged : fit l := .inl rfl
  refine Program.Obeys.retry _ (fun w hw => ?_) unchanged
  rintro _ rfl
  refine ⟨creates, fun (a : Except TaskError Job) w' served => ?_⟩
  have served : w.Serves (.createJob job) a w' := served
  have hw' : fit w' := by
    cases served.step with
    | still => exact hw
    | created call free =>
        obtain rfl := RequestCall.createJob.inj call
        rcases hw with rfl | ⟨-, rfl⟩
        · exact .inr ⟨free, rfl⟩
        · exact absurd ⟨job, List.mem_append_right _ (List.mem_singleton_self _), rfl⟩ free
    | written call => cases call
  have told : RequestCall.saysCreated a = true → w'.Holds job.metadata.name := served.tells
  cases a with
  | ok _ => exact ⟨fun _ _ => ensured hw' (told rfl), fun _ _ => hw'⟩
  | error e =>
      refine ⟨fun _ hresult => ensured hw' (told ?_), fun _ _ => hw'⟩
      show e.meansExists = true
      by_contra hother
      simp [hother] at hresult

/-- A look at the clock leaves a ledger as it is. -/
theorem now_alone (l : Ledger) :
    Task.Obeys (Ledger.solo.serving (Except TaskError Instant)) (.alone Ledger allowed)
      (fun l' _ => l = l') (ExceptT.lift Program.now) l :=
  .now fun _ _ h => h

/-- The jobs of the method in use are looked at, as the ledger shows them. -/
theorem observe_still (l : Ledger) (s : Status) (name : String) :
    Task.Keeps l.still (fun _ o => ∃ t, o = (s.looked name l.jobs t, s.found name l.jobs))
      (observe name s) l := by
  unfold Status.looked Status.found
  cases hm : s.activeMethod with
  | none =>
      rw [observe_idle hm]
      exact .pure ⟨default, rfl⟩
  | some method =>
      refine .weaken rfl (observe_keeps rfl hm rfl) ?_
      rintro w' o - ⟨jobs, t, ⟨v, hv, hrep, -⟩, rfl⟩
      obtain rfl : l = v := hv.evolves
      obtain rfl := hrep jobs rfl
      exact ⟨t, rfl⟩

end Parts

/-! ### A whole pass -/

section Pass

variable {l l₁ : Ledger} {r : Request} {c : Config} {settings : Settings} {now : Instant}

/-- The discipline of a pass that is alone. -/
abbrev Ledger.discipline (l : Ledger) (r : Request) (settings : Settings) (now : Instant) :
    Discipline RequestStore Ledger :=
  .alone Ledger (l.Calls r settings now)

theorem Ledger.reads_calls (l : Ledger) (r : Request) (settings : Settings) (now : Instant)
    (c : RequestCall) (hc : c.isRead = true) : l.Calls r settings now c := by
  cases c with
  | createJob => cases hc
  | _ => trivial

variable (hl : l.Versioned) (latest : l.latest? = some r)

include hl latest

/-- What was decided is written. -/
theorem conclude_alone {t t' : Instant} {d : Decision} {s' : Status} {outcome : Outcome}
    (due : r.Due now) (chosen : l.choice r = .ok c) (decided : l.decision r c now = d)
    (concludes : (l.hand r c t t').Concludes settings r c d s' outcome)
    (prepares : l.Prepares r c settings d l₁) :
    Task.Obeys Ledger.solo (l.discipline r settings now) (l.Turn r settings now)
      (do persist settings r (r.status.getD {}) s'; return outcome) l₁ := by
  subst decided
  obtain ⟨jobs, hjobs⟩ := prepares.jobs
  have hl₁ : l₁.Versioned := hl.congr (by rw [hjobs])
  have latest₁ : l₁.latest? = some r := by rw [hjobs]; exact latest
  refine .bind (persist_alone hl₁ latest₁ fun _ _ _ => trivial) fun w' _ writes => .pure ?_
  exact .concludes due chosen concludes prepares writes

/-- A method is put in use. -/
theorem dispatch_alone {index : Nat} {m : Method} {t t' : Instant} (due : r.Due now)
    (chosen : l.choice r = .ok c) (decided : l.decision r c now = .dispatch index m) :
    Task.Obeys Ledger.solo (l.discipline r settings now) (l.Turn r settings now)
      (dispatch settings r (r.status.getD {}) (l.hand r c t t') c m) l := by
  unfold dispatch
  refine .bind (now_alone l) ?_
  rintro _ t₁ rfl
  cases hbuild : m.buildJob c r settings.dispatch.build with
  | error e =>
      refine .bind (now_alone l) ?_
      rintro _ t₂ rfl
      refine conclude_alone hl latest due chosen decided (.aborts hbuild) ?_
      show (match m.buildJob c r settings.dispatch.build with
        | .ok job => l.Ensures job l
        | .error _ => l = l)
      rw [hbuild]
  | ok job =>
      refine .bind (createJob_alone (l := l) ⟨due, c, index, m, chosen, decided, hbuild⟩) ?_
      intro l₁ _ ensures
      refine .bind (now_alone l₁) ?_
      rintro _ t₂ rfl
      refine conclude_alone hl latest due chosen decided (.dispatches hbuild) ?_
      show (match m.buildJob c r settings.dispatch.build with
        | .ok job => l.Ensures job _
        | .error _ => _ = l)
      rw [hbuild]
      exact ensures

/-- The next step is taken. -/
theorem proceed_alone {t : Instant} (due : r.Due now) (chosen : l.choice r = .ok c) :
    Task.Obeys Ledger.solo (l.discipline r settings now) (l.Turn r settings now)
      (proceed settings r now (r.status.getD {}) ((r.status.getD {}).choosing c t) c) l := by
  refine .bind (Task.Keeps.alone (l.reads_calls r settings now) (observe_still l _ _)) ?_
  rintro _ _ ⟨rfl, t', rfl⟩
  dsimp only
  generalize hdecision : Config.nextStep _ _ _ _ = decision
  have decided : l.decision r c now = decision :=
    (l.nextStep_hand r c now t t').symm.trans hdecision
  cases decision with
  | wait method => exact conclude_alone hl latest due chosen decided .waits rfl
  | delay index remaining =>
      exact conclude_alone hl latest due chosen decided .delays rfl
  | complete method =>
      refine .bind (now_alone l) ?_
      rintro _ t'' rfl
      exact conclude_alone hl latest due chosen decided .completes rfl
  | exhausted last =>
      refine .bind (now_alone l) ?_
      rintro _ t'' rfl
      exact conclude_alone hl latest due chosen decided .exhausts rfl
  | dispatch index m => exact dispatch_alone hl latest due chosen decided

/-- One pass over a request that is open and valid. -/
theorem advance_alone (due : r.Due now) :
    Task.Obeys Ledger.solo (l.discipline r settings now) (l.Turn r settings now)
      (advance settings r now) l := by
  have reads := l.reads_calls r settings now
  have labelled : Task.Keeps l.still (fun _ labels => labels = l.labels r.target)
      (ExceptT.mk (RequestStore.nodeLabels r.target)) l := by
    refine Program.Keeps.weaken rfl (.ask rfl) ?_
    rintro w' _ - ⟨v, hv, hrep, -⟩ labels rfl
    obtain rfl : l = v := hv.evolves
    exact hrep labels rfl
  have shown : Task.Keeps l.still (fun _ snapshot => snapshot = l.registry.snapshot)
      (ExceptT.lift RequestStore.configs : RequestTask Snapshot) l := by
    refine .lift (Program.Keeps.weaken rfl (.ask rfl) ?_)
    rintro w' snapshot - ⟨v, hv, hrep, -⟩
    obtain rfl : l = v := hv.evolves
    exact hrep
  refine .bind (Task.Keeps.alone reads labelled) ?_
  rintro _ _ ⟨rfl, rfl⟩
  refine .bind (Task.Keeps.alone reads shown) ?_
  rintro _ _ ⟨rfl, rfl⟩
  generalize hchoice : Snapshot.select _ _ _ _ = choice
  have chosen : l.choice r = choice := hchoice
  cases choice with
  | error e =>
      refine .bind (now_alone l) ?_
      rintro _ t rfl
      refine .bind (persist_alone hl latest fun _ _ _ => trivial) fun w' _ writes => .pure ?_
      exact .rejects due chosen writes
  | ok c =>
      refine .bind (Task.Keeps.alone reads (choose_keeps c rfl)) ?_
      rintro _ _ ⟨rfl, t, rfl⟩
      exact proceed_alone hl latest due chosen

/-- **A pass that succeeds alone does its turn**, however often its calls fail before.  On the way
it creates no job but the one that is decided on. -/
theorem pass_turns : Task.Obeys Ledger.solo (l.discipline r settings now)
    (l.Turn r settings now) (pass settings r now) l := by
  unfold pass
  split
  · next hcomplete => exact .pure (.rests hcomplete)
  · next hopen =>
      have isOpen : r.isComplete = false := by simpa using hopen
      split
      · next gate hgate =>
          split
          · next hearly => exact .pure (.early isOpen hgate hearly)
          · next hlate =>
              refine advance_alone hl latest ⟨isOpen, fun gate' hgate' => ?_⟩
              obtain rfl := Option.some.inj (hgate.symm.trans hgate')
              exact hlate
      · next hgate =>
          exact advance_alone hl latest ⟨isOpen, fun gate hgate' => nomatch hgate.symm.trans hgate'⟩

end Pass

/-! ### What a pass can do -/

section Yields

variable {runs : Settings → Prop} {changes : Ledger → Ledger → Prop} {l l' : Ledger}
  {r : Request} {s s' : Status} {c : Config} {settings : Settings} {now : Instant}
  {outcome : Outcome}

theorem choose_yields (t : Instant) :
    Task.Yields (Ledger.rules runs changes) l (choose s c) l (s.choosing c t) := by
  have shown : (Ledger.rules runs changes).shows l t := trivial
  unfold choose Status.choosing
  split
  · exact .pure
  · exact .bind (.now shown) .pure

theorem observe_yields (name : String) (t : Instant) :
    Task.Yields (Ledger.rules runs changes) l (observe name s) l
      (s.looked name l.jobs t, s.found name l.jobs) := by
  have shown : (Ledger.rules runs changes).shows l t := trivial
  obtain ⟨complete, result, config, activeMethod, activeJob, updates⟩ := s
  unfold observe Status.looked Status.found
  cases activeMethod with
  | none => exact .pure
  | some method =>
      have asked : Task.Yields (Ledger.rules runs changes) l
          (ExceptT.mk (RequestStore.methodJobs name method)) l
          (l.jobs.filter (·.isFor name method)) :=
        Program.Yields.ask (.effect .methodJobs)
      refine .bind asked ?_
      unfold Status.observing
      dsimp only
      cases activeJob <;> cases methodState (l.jobs.filter (·.isFor name method))
      case none.running => exact .pure
      case some.succeeded => exact .bind (.now shown) .pure
      case some.failed => exact .bind (.now shown) .pure
      case some.missing => exact .bind (.now shown) .pure
      all_goals exact .pure

/-- A job is created, or it is found to be there. -/
theorem createJob_yields {job : Job} (h : l.Ensures job l') :
    Task.Yields (Ledger.rules runs changes) l (createJob settings job) l' () := by
  rcases h with ⟨held, hsame⟩ | ⟨free, rfl⟩
  · have taken : (Ledger.rules runs changes).answers l (.createJob job)
        (.error (.alreadyExists (job.metadata.name.getD ""))) l :=
      .effect (.taken held rfl)
    rw [hsame]
    exact Program.Yields.retry _ ((Program.Yields.ask taken).bind .done)
  · have created : (Ledger.rules runs changes).answers l (.createJob job) (.ok job)
        { l with jobs := l.jobs ++ [job] } :=
      .effect (.created free)
    exact Program.Yields.retry _ ((Program.Yields.ask created).bind .done)

/-- A status may be written over the latest revision. -/
theorem persist_yields {old new : Status} (latest : l.latest? = some r)
    (h : l.Writes r old new l') :
    Task.Yields (Ledger.rules runs changes) l (persist settings r old new) l' () := by
  unfold persist
  rcases h with ⟨hsame, rfl⟩ | ⟨hother, v, fresh, rfl⟩
  · rw [if_pos hsame]
    exact .pure
  · have landed : (Ledger.rules runs changes).answers l
        (.patchStatus r.name r.metadata.resourceVersion new) (.ok ()) (l.add (r.written new v)) :=
      .effect (.landed latest (.inr rfl) fresh)
    rw [if_neg hother]
    have wrote := Program.Yields.retry settings.retry.backoff <|
      (Program.Yields.ask landed).bind
        (f := fun answer => .done (settled TaskError.isConflict answer)) .done
    exact .bind wrote .done

/-- What was decided can be done. -/
theorem proceed_yields {t t' : Instant} {l₁ : Ledger} (latest : l.latest? = some r)
    (concludes : (l.hand r c t t').Concludes settings r c (l.decision r c now) s' outcome)
    (prepares : l.Prepares r c settings (l.decision r c now) l₁)
    (writes : l₁.Writes r (r.status.getD {}) s' l') :
    Task.Yields (Ledger.rules runs changes) l
      (proceed settings r now (r.status.getD {}) ((r.status.getD {}).choosing c t) c)
      l' outcome := by
  have shown (l : Ledger) (t : Instant) : (Ledger.rules runs changes).shows l t := trivial
  have latest₁ : l₁.latest? = some r := by
    obtain ⟨jobs, rfl⟩ := prepares.jobs
    exact latest
  refine .bind (observe_yields r.name t') ?_
  dsimp only
  generalize hdecision : Config.nextStep _ _ _ _ = decision
  have decided : l.decision r c now = decision :=
    (l.nextStep_hand r c now t t').symm.trans hdecision
  rw [decided] at concludes prepares
  cases concludes with
  | waits =>
      obtain rfl : l₁ = l := prepares
      exact .bind (persist_yields latest writes) .pure
  | delays =>
      obtain rfl : l₁ = l := prepares
      exact .bind (persist_yields latest writes) .pure
  | completes =>
      obtain rfl : l₁ = l := prepares
      exact .bind (.now (shown _ _)) (.bind (persist_yields latest writes) .pure)
  | exhausts =>
      obtain rfl : l₁ = l := prepares
      exact .bind (.now (shown _ _)) (.bind (persist_yields latest writes) .pure)
  | @aborts index m e t₁ t₂ unbuilt =>
      obtain rfl : l₁ = l := by
        simpa only [Ledger.Prepares, unbuilt] using prepares
      refine .bind (.now (shown _ t₁)) ?_
      rw [unbuilt]
      exact .bind (.now (shown _ t₂)) (.bind (persist_yields latest writes) .pure)
  | @dispatches index m job t₁ t₂ built =>
      have ensures : l.Ensures job l₁ := by
        simpa only [Ledger.Prepares, built] using prepares
      refine .bind (.now (shown _ t₁)) ?_
      rw [built]
      refine .bind (createJob_yields ensures) ?_
      exact .bind (.now (shown _ t₂)) (.bind (persist_yields latest₁ writes) .pure)

/-- A request that is due is advanced. -/
theorem Request.Due.pass (due : r.Due now) : pass settings r now = advance settings r now := by
  unfold NodeFencing.pass
  rw [if_neg (by simp [due.isOpen])]
  cases hgate : r.gate? with
  | none => rfl
  | some gate => exact if_neg (due.reached gate hgate)

/-- **A pass can do its turn.** -/
theorem Ledger.Turn.yields (latest : l.latest? = some r) (h : l.Turn r settings now l' outcome) :
    Task.Yields (Ledger.rules runs changes) l (pass settings r now) l' outcome := by
  have shown (l : Ledger) (t : Instant) : (Ledger.rules runs changes).shows l t := trivial
  have labels : Task.Yields (Ledger.rules runs changes) l
      (ExceptT.mk (RequestStore.nodeLabels r.target)) l (l.labels r.target) :=
    Program.Yields.ask (.effect .nodeLabels)
  have configs : Task.Yields (Ledger.rules runs changes) l
      (ExceptT.lift RequestStore.configs : RequestTask Snapshot) l l.registry.snapshot :=
    .lift (Program.Yields.ask (.effect .configs))
  cases h with
  | rests h =>
      unfold pass
      rw [if_pos h]
      exact .pure
  | early isOpen hgate h =>
      unfold pass
      rw [if_neg (by simp [isOpen]), hgate]
      dsimp only
      rw [if_pos h]
      exact .pure
  | @rejects e t l' due chosen writes =>
      rw [due.pass]
      refine .bind labels (.bind configs ?_)
      rw [show Snapshot.select _ _ _ _ = _ from chosen]
      exact .bind (.now (shown _ t)) (.bind (persist_yields latest writes) .pure)
  | @concludes c t t' s' outcome l₁ l' due chosen concludes prepares writes =>
      rw [due.pass]
      refine .bind labels (.bind configs ?_)
      rw [show Snapshot.select _ _ _ _ = _ from chosen]
      exact .bind (choose_yields t) (proceed_yields latest concludes prepares writes)

end Yields

/-! ### A pass among nobody -/

section Goes

variable {l l' : Ledger} {r : Request} {settings : Settings} {now : Instant} {outcome : Outcome}
  {had : List (Exchange RequestStore Ledger)} {q : Program RequestStore (Except TaskError Outcome)}

/-- What a pass does that is alone, as far as it has come. -/
theorem pass_goes_alone (hl : l.Versioned) (latest : l.latest? = some r)
    (h : Program.Goes Ledger.solo l (pass settings r now).run had l' q) :
    (∀ x ∈ had, l.Calls r settings now x.call) ∧
      ∀ outcome, q = .done (.ok outcome) → l.Turn r settings now l' outcome := by
  have turns : Task.Obeys Ledger.solo (l.discipline r settings now) (l.Turn r settings now)
      (pass settings r now) l := pass_turns hl latest
  have nobody {w w' : Ledger} (changed : Ledger.solo.changes w w') : w = w' := changed.elim
  obtain ⟨hobeys, hcalls⟩ :=
    turns.goes (fun _ => rfl) (fun w w' result hw hpost => hw ▸ hpost) nobody h
  refine ⟨hcalls, fun outcome hq => ?_⟩
  subst hq
  exact hobeys outcome rfl

/-- A pass that is alone can do its turn. -/
theorem Ledger.Turn.goes (latest : l.latest? = some r) (h : l.Turn r settings now l' outcome) :
    ∃ had, Program.Goes Ledger.solo l (pass settings r now).run had l' (.done (.ok outcome)) := by
  have yields : Task.Yields Ledger.solo l (pass settings r now) l' outcome := h.yields latest
  exact Program.Goes.of_moves yields.moves

end Goes

end NodeFencing
