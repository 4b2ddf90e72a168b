import NodeFencing.Proofs.Reconcile.Guide

/-!
# The past of a request

A request remembers everything that was done for it.  Its log only grows, and once the
request has ended its status stays as it is, although copies of any age are worked on at
the same time, calls fail with and without an effect, and the surroundings change.

The reason is that a pass extends the log of the copy from which it started, and its
write lands on the revision of that copy or nowhere.

## Main Definitions

* `Request.Precedes` — a revision that may stand before another one
* `Ledger.Around` — what others do to a request and its surroundings
* `Ledger.Outlasts` — what is kept of a ledger: its past, and that the request is gone
* `historyContract` — the promises under which the past is kept

## Main statements

* `Request.Precedes.written` — a write over an open revision that extends its log
* `historyGuide` — passes keep the contract
* `stored_statuses_extend` — every status of a run extends all those before it
-/

namespace NodeFencing

/-! ### What extends a log -/

namespace Status

variable {s : Status} {t : Instant}

theorem prefix_record (method : Option String) (result : Result) (detail : String)
    (error : Option String) : s.updates <+: (s.record t method result detail error).updates :=
  List.prefix_append _ _

theorem prefix_finalize (result : Result) (detail : String) (error : Option String) :
    s.updates <+: (s.finalize t result detail error).updates :=
  List.prefix_append _ _

theorem prefix_choosing (c : Config) : s.updates <+: (s.choosing c t).updates := by
  unfold choosing
  split
  · exact List.prefix_rfl
  · split <;> exact List.prefix_append _ _

theorem prefix_observing (method : String) (jobs : List Job) :
    s.updates <+: (s.observing method jobs t).updates := by
  unfold observing
  split
  · exact List.prefix_rfl
  · exact prefix_record _ _ _ _
  · exact prefix_record _ _ _ _
  · exact prefix_record _ _ _ _
  · exact List.prefix_rfl

theorem prefix_selecting (method : String) : s.updates <+: (s.selecting method t).updates :=
  List.prefix_append _ _

theorem prefix_dispatched (method job : String) :
    s.updates <+: (s.dispatched method job t).updates :=
  List.prefix_append _ _

/-- Whatever is decided, the log goes on. -/
theorem Concludes.prefix_updates {settings : Settings} {r : Request} {c : Config} {d : Decision}
    {s' : Status} {outcome : Outcome} (h : s.Concludes settings r c d s' outcome) :
    s.updates <+: s'.updates := by
  cases h with
  | waits => exact List.prefix_rfl
  | delays => exact List.prefix_rfl
  | completes => exact prefix_finalize _ _ _
  | exhausts => exact prefix_finalize _ _ _
  | aborts => exact (prefix_selecting _).trans (prefix_record _ _ _ _)
  | dispatches => exact (prefix_selecting _).trans (prefix_dispatched _ _)

end Status

/-! ### Revisions -/

/-- A revision may stand before another one: the log of its status is the beginning of the other's,
and if it says that the request has ended, the other has the same status. -/
def Request.Precedes (r r' : Request) : Prop :=
  ∀ s, r.status = some s →
    ∃ s', r'.status = some s' ∧ s.updates <+: s'.updates ∧ (s.complete = true → s' = s)

namespace Request.Precedes

variable {r r' r'' : Request}

theorem of_status_eq (h : r'.status = r.status) : r.Precedes r' :=
  fun s hs => ⟨s, h.trans hs, List.prefix_rfl, fun _ => rfl⟩

theorem trans (h : r.Precedes r') (h' : r'.Precedes r'') : r.Precedes r'' := by
  intro s hs
  obtain ⟨s', hs', hlog, hend⟩ := h s hs
  obtain ⟨s'', hs'', hlog', hend'⟩ := h' s' hs'
  refine ⟨s'', hs'', hlog.trans hlog', fun hc => ?_⟩
  obtain rfl := hend hc
  exact hend' hc

/-- A write over a revision that is open may extend its log. -/
theorem written {s : Status} {revision : Option String} (hopen : r.isComplete = false)
    (hlog : (r.status.getD {}).updates <+: s.updates) : r.Precedes (r.written s revision) := by
  intro s₀ hs₀
  have hcomplete : s₀.complete = false := by simpa [Request.isComplete, hs₀] using hopen
  refine ⟨s, rfl, by simpa [hs₀] using hlog, fun hc => ?_⟩
  simp [hcomplete] at hc

end Request.Precedes

namespace Ledger

/-- What others do to a request and its surroundings: anything, except that they leave its status
alone while it exists. -/
inductive Around (l : Ledger) : Ledger → Prop
  | surroundings {registry labels jobs} : Around l { l with registry, labels, jobs }
  | edited {r r'} (latest : l.latest? = some r) (same : r'.status = r.status)
      (fresh : l.Fresh r'.metadata.resourceVersion) : Around l (l.add r')
  | deleted : Around l { l with present := false }

/-- A ledger and what has become of it: the past of the request is kept, and where the request was
gone it has stayed so. -/
structure Outlasts (l l' : Ledger) : Prop where
  past : l.revisions <+: l'.revisions
  gone : l.latest? = none → l'.latest? = none

namespace Outlasts

variable {l l' l'' : Ledger}

theorem refl (l : Ledger) : l.Outlasts l :=
  ⟨List.prefix_rfl, id⟩

theorem trans (h : l.Outlasts l') (h' : l'.Outlasts l'') : l.Outlasts l'' :=
  ⟨h.past.trans h'.past, fun hgone => h'.gone (h.gone hgone)⟩

theorem add {r : Request} (latest : l.latest? = some r) (r' : Request) : l.Outlasts (l.add r') :=
  ⟨List.prefix_append _ _, fun hgone => nomatch latest.symm.trans hgone⟩

end Outlasts

/-- A status that continues the one of an open revision. -/
structure Continues (l : Ledger) (r : Request) (s : Status) : Prop where
  stored : r ∈ l.revisions
  isOpen : r.isComplete = false
  extends_log : (r.status.getD {}).updates <+: s.updates

namespace Continues

variable {l l' : Ledger} {r : Request} {s s' : Status}

theorem start (hr : r ∈ l.revisions) (hopen : r.isComplete = false) :
    l.Continues r (r.status.getD {}) :=
  ⟨hr, hopen, List.prefix_rfl⟩

theorem mono (h : l.Continues r s) (hl : l.revisions <+: l'.revisions) : l'.Continues r s :=
  ⟨hl.subset h.stored, h.isOpen, h.extends_log⟩

theorem trans (h : l.Continues r s) (hs : s.updates <+: s'.updates) : l.Continues r s' :=
  ⟨h.stored, h.isOpen, h.extends_log.trans hs⟩

end Continues

/-- Every revision may stand before all those behind it. -/
structure Chronicle (l : Ledger) : Prop where
  versioned : l.Versioned
  ordered : l.revisions.Pairwise Request.Precedes

theorem exists_past {l : Ledger} {r : Request} (h : l.latest? = some r) :
    ∃ past, l.revisions = past ++ [r] := by
  unfold latest? at h
  split at h
  · exact List.getLast?_eq_some_iff.mp h
  · cases h

theorem Chronicle.congr {l l' : Ledger} (h : l.Chronicle) (hl : l'.revisions = l.revisions) :
    l'.Chronicle :=
  ⟨h.versioned.congr hl, hl ▸ h.ordered⟩

/-- What the latest revision precedes may be stored behind it. -/
theorem Chronicle.add {l : Ledger} {r r' : Request} (h : l.Chronicle) (latest : l.latest? = some r)
    (hr : r.Precedes r') (fresh : l.Fresh r'.metadata.resourceVersion) : (l.add r').Chronicle := by
  obtain ⟨past, hpast⟩ := exists_past latest
  -- All earlier ones precede the latest one, and so what it precedes.
  have before : ∀ r₁ ∈ l.revisions, r₁.Precedes r' := by
    intro r₁ hr₁
    have hordered := h.ordered
    rw [hpast] at hr₁ hordered
    rcases List.mem_append.mp hr₁ with hold | hlast
    · exact ((List.pairwise_append.mp hordered).2.2 r₁ hold r (List.mem_singleton_self r)).trans hr
    · exact List.mem_singleton.mp hlast ▸ hr
  refine ⟨h.versioned.add fresh, ?_⟩
  refine List.pairwise_append.mpr ⟨h.ordered, List.pairwise_singleton _ _, fun r₁ hr₁ r₂ hr₂ => ?_⟩
  exact List.mem_singleton.mp hr₂ ▸ before r₁ hr₁

/-- **One call** that writes only what continues an open revision. -/
theorem Chronicle.serves {l l' : Ledger} {c : RequestCall} {a : c.Answer} (h : l.Chronicle)
    (hwrite : ∀ {request revision s}, c = .patchStatus request revision s →
      ∃ r, revision = r.metadata.resourceVersion ∧ l.Continues r s)
    (hs : l.Serves c a l') : l.Outlasts l' ∧ l'.Chronicle := by
  cases hs.step with
  | still => exact ⟨.refl l, h⟩
  | created => exact ⟨⟨List.prefix_rfl, id⟩, h.congr rfl⟩
  | written call latest same fresh =>
      -- What is written continues some stored revision; by its number this is the latest one.
      obtain ⟨r, rfl, hcont⟩ := hwrite call
      obtain rfl := h.versioned.pinned latest hcont.stored same
      exact ⟨.add latest _, h.add latest (.written hcont.isOpen hcont.extends_log) fresh⟩

/-- **One change** by others. -/
theorem Chronicle.around {l l' : Ledger} (h : l.Chronicle) (ha : l.Around l') :
    l.Outlasts l' ∧ l'.Chronicle := by
  cases ha with
  | surroundings => exact ⟨⟨List.prefix_rfl, id⟩, h.congr rfl⟩
  | edited latest same fresh => exact ⟨.add latest _, h.add latest (.of_status_eq same) fresh⟩
  | deleted => exact ⟨⟨List.prefix_rfl, fun _ => rfl⟩, h.congr rfl⟩

end Ledger

/-! ### The contract -/

/-- Under this contract a status is written only over an open revision, whose log it extends. -/
def historyContract : Contract RequestStore Ledger where
  holds := Ledger.Chronicle
  evolves := Ledger.Outlasts
  permits l
    | .patchStatus _ revision s => ∃ r, revision = r.metadata.resourceVersion ∧ l.Continues r s
    | _ => True
  reports := Ledger.Tells
  evolves_refl := .refl
  evolves_trans := .trans
  permits_mono {l l' c} hl h := by
    cases c with
    | patchStatus request revision s =>
        obtain ⟨r, hr, hcont⟩ := h
        exact ⟨r, hr, hcont.mono hl.past⟩
    | _ => trivial

/-- Passes keep the contract, from whichever revision they start. -/
def historyGuide (settings : Settings) : Guide historyContract settings where
  knows l r := r ∈ l.revisions
  chosen r _ l s := l.Continues r s
  seen r _ l s _ := l.Continues r s
  knows_mono hlead hr := hlead.evolves.past.subset hr
  chosen_mono hlead h := h.mono hlead.evolves.past
  seen_mono hlead h := h.mono hlead.evolves.past
  reads c hc := by
    cases c with
    | patchStatus => cases hc
    | _ => trivial
  latest _ hrep := Ledger.mem_of_latest? (hrep _ rfl)
  rejects hr hopen _ :=
    ⟨_, rfl, (Ledger.Continues.start hr hopen).trans (Status.prefix_finalize _ _ _)⟩
  chooses hr hopen _ := (Ledger.Continues.start hr hopen).trans (Status.prefix_choosing _)
  idle h _ := h
  looks h _ _ := h.trans (Status.prefix_observing _ _)
  keeps h := ⟨_, rfl, h⟩
  completes h _ := ⟨_, rfl, h.trans (Status.prefix_finalize _ _ _)⟩
  exhausts h _ := ⟨_, rfl, h.trans (Status.prefix_finalize _ _ _)⟩
  aborts h _ _ :=
    ⟨_, rfl, (h.trans (Status.prefix_selecting _)).trans (Status.prefix_record _ _ _ _)⟩
  creates _ _ _ := trivial
  dispatches h _ _ _ _ :=
    ⟨_, rfl, (h.trans (Status.prefix_selecting _)).trans (Status.prefix_dispatched _ _)⟩

/-- A ledger keeps its side of the contract. -/
theorem historyContract_binds (runs : Settings → Prop) :
    historyContract.Binds (fun _ _ => True) (Ledger.rules runs Ledger.Around) where
  stable _ _ _ _ _ := trivial
  begins hl h := by
    obtain ⟨settings, r, now, -, hr, rfl⟩ := h
    exact (historyGuide settings).reconcile hl hr
  answers {l c a l'} hl hpermit hs := by
    have hwrite : ∀ {request revision s}, c = .patchStatus request revision s →
        ∃ r, revision = r.metadata.resourceVersion ∧ l.Continues r s := by
      rintro request revision s rfl
      exact hpermit
    obtain ⟨hlasts, hl'⟩ := hl.serves hwrite hs
    exact ⟨⟨hlasts, hl'⟩, hs.tells⟩
  changes hl h := by
    obtain ⟨hlasts, hl'⟩ := hl.around h
    exact ⟨hlasts, hl'⟩
  shows _ := trivial

/-! ### Runs -/

/-- **The past is kept.**  Copies of any revision of a request are worked on side by side, in any
number and with any settings, while others change the surroundings.  Each status that is then
stored has the log of every earlier one as its beginning, and is the same as an earlier one that
says that the request has ended. -/
theorem stored_statuses_extend {l : Ledger} {r : Request}
    {t : Traffic RequestStore (Except TaskError Outcome) Ledger} (hstart : l.revisions = [r])
    (hversion : r.metadata.resourceVersion.isSome)
    (hrun : Traffic.Run (Ledger.rules (fun _ => True) Ledger.Around) (.quiet l) t) :
    t.site.revisions.Pairwise Request.Precedes := by
  have hl : l.Chronicle := ⟨.single hstart hversion, by simp [hstart]⟩
  have quiet : Traffic.Orderly historyContract (fun _ _ => True)
      (Traffic.quiet l : Traffic RequestStore (Except TaskError Outcome) Ledger) := .quiet hl
  exact (quiet.run (historyContract_binds _) hrun).2.holds.ordered

/-- A request that is just made, for which there is no configuration. -/
def newRequest : Request where
  metadata := { name := some "fence-node-1", resourceVersion := some "1" }
  target := "node-1"

@[inherit_doc newRequest]
def newRequestStart : Ledger where
  revisions := [newRequest]

/-- The same request, with a configuration of one method. -/
def dispatchStart : Ledger where
  registry := Registry.insert {} {
    name := "racks"
    methods := [{ name := "power", mechanisms := [{ command := some ["off"] }] }] }
  revisions := [newRequest]

theorem dispatchStart_free (job : Job) : ¬ dispatchStart.Holds job.metadata.name := by
  simp [Ledger.Holds, dispatchStart]

theorem dispatchStart_fresh (jobs : List Job) :
    Ledger.Fresh { dispatchStart with jobs } (some "2") :=
  ⟨rfl, by simp [dispatchStart, newRequest]⟩

/-- Without a configuration the request is ended.  This write lands unseen, and is refused when it
is repeated. -/
theorem stored_statuses_extend_unseen :
    ∃ t : Traffic RequestStore (Except TaskError Outcome) Ledger,
      Traffic.Run (Ledger.rules (fun _ => True) Ledger.Around) (.quiet newRequestStart) t ∧
      t.site.revisions.map Request.isComplete = [false, true] ∧
      t.site.revisions.Pairwise Request.Precedes := by
  have begun : (Ledger.rules (fun _ => True) Ledger.Around).begins newRequestStart
      (reconcile {} newRequest ⟨0, 0⟩).run :=
    ⟨{}, newRequest, ⟨0, 0⟩, trivial, List.mem_singleton_self _, rfl⟩
  have shown : (Ledger.rules (fun _ => True) Ledger.Around).shows newRequestStart ⟨0, 0⟩ := trivial
  have fresh : newRequestStart.Fresh (some "2") := ⟨rfl, by decide⟩
  have unseen (s : Status) : Ledger.Serves newRequestStart
      (.patchStatus "fence-node-1" (some "1") s) (.error (.api (.refused 500)))
      (newRequestStart.add (newRequest.written s (some "2"))) :=
    .failed nofun (.inr ⟨.ok (), .landed rfl (.inr rfl) fresh⟩) fun _ h => nomatch h
  have refused (s : Status) : Ledger.Serves (newRequestStart.add (newRequest.written s (some "2")))
      (.patchStatus "fence-node-1" (some "1") s) (.error (.conflict "fence-node-1"))
      (newRequestStart.add (newRequest.written s (some "2"))) :=
    .effect (.refused rfl ⟨rfl, by simp [Request.written]⟩)
  have nothing : Traffic.Run (Ledger.rules (fun _ => True) Ledger.Around) (.quiet newRequestStart)
      (.quiet newRequestStart) := .refl
  obtain ⟨t, hrun, hsite, -⟩ := nothing.begins 0 rfl begun <|
    .head (.call (.effect .nodeLabels)) <| .head (.call (.effect .configs)) <|
    .head (.clock shown) <| .head (.call (unseen _)) <| .head .pause <|
    .single (.call (refused _))
  exact ⟨t, hrun, by rw [hsite]; rfl, stored_statuses_extend rfl rfl hrun⟩

end NodeFencing
