import NodeFencing.Proofs.Escalation
import NodeFencing.Proofs.Reconcile.History
import NodeFencing.Proofs.Time
import NodeFencing.Settings.Validate

/-!
# No request is forgotten

The outcome of a pass says when its request is looked at again.  If this is only when
something changes, the request must have nothing to wait for: it has ended, or it is gone.
Else nobody would come back to a request that is still to be carried out.  And if it is
after some time, some time has to pass, or the pass would be made over and over at once.

That a request has ended is known from the copy of the pass, or from the answer to the write
that ends it; that it is gone, from the answer that there is no request, or to a write that
has no effect.  Both stay so, whatever is done behind it.

## Main Definitions

* `Ledger.AtRest` — a request that has ended or is gone
* `Outcome.Kept` — what the outcome of a pass promises

## Main statements

* `Contract.Exits.atRest`, `Contract.Exits.later` — the ways in which a pass may end
* `reconcile_kept` — a repeated pass keeps what its outcome promises
* `requests_not_forgotten` — so it does among others, in any run
-/

namespace NodeFencing

/-! ### Requests at rest -/

/-- A request that has ended at some time, or is gone. -/
def Ledger.AtRest (l : Ledger) : Prop :=
  l.latest? = none ∨ ∃ r ∈ l.revisions, r.isComplete = true

namespace Ledger

variable {l l' : Ledger}

theorem AtRest.mono (h : l.AtRest) (hl : l.Outlasts l') : l'.AtRest := by
  rcases h with hgone | ⟨r, hr, hcomplete⟩
  · exact .inl (hl.gone hgone)
  · exact .inr ⟨r, hl.past.subset hr, hcomplete⟩

/-- What has ended is not begun again. -/
theorem AtRest.isComplete (h : l.AtRest) (hl : l.Chronicle) {r : Request}
    (latest : l.latest? = some r) : r.isComplete = true := by
  rcases h with hgone | ⟨r₀, hr₀, hcomplete⟩
  · exact nomatch hgone.symm.trans latest
  · obtain ⟨past, hpast⟩ := exists_past latest
    have ordered := hl.ordered
    rw [hpast] at hr₀ ordered
    rcases List.mem_append.mp hr₀ with hold | hlast
    · have precedes := (List.pairwise_append.mp ordered).2.2 r₀ hold r (List.mem_singleton_self r)
      cases hs : r₀.status with
      | none => simp [Request.isComplete, hs] at hcomplete
      | some s =>
          have hended : s.complete = true := by simpa [Request.isComplete, hs] using hcomplete
          obtain ⟨s', hs', -, hend⟩ := precedes s hs
          obtain rfl := hend hended
          simpa [Request.isComplete, hs'] using hended
    · exact List.mem_singleton.mp hlast ▸ hcomplete

end Ledger

/-! ### The ways in which a pass may end -/

/-- Usable settings let some time pass before the jobs are looked at again. -/
theorem Settings.jobPoll_pos {s : Settings} (usable : s.fault? = none) :
    0 < s.dispatch.jobPoll.nanos := by
  refine Nat.mul_pos (Nat.pos_of_ne_zero fun hzero => ?_) (by decide)
  simp only [fault?, hzero, beq_self_eq_true, Bool.true_or, if_true] at usable
  split at usable
  · cases usable
  · split at usable
    · cases usable
    · split at usable <;> cases usable

namespace Contract.Exits

variable {settings : Settings} {r : Request} {now : Instant} {l : Ledger} {outcome : Outcome}

/-- A pass behind which nothing is to be done leaves a request at rest. -/
theorem atRest (h : historyContract.Exits settings r now l outcome) (hr : r ∈ l.revisions)
    (hdone : outcome = .done) : l.AtRest := by
  cases h with
  | resting h => exact .inr ⟨r, hr, h⟩
  | @ended l₀ s complete told =>
      obtain ⟨v, -, hrep, hlead⟩ := told
      have rest : v.AtRest := by
        refine (hrep rfl).imp_right fun ⟨r', hr', hs⟩ => ⟨r', hr', ?_⟩
        simpa [Request.isComplete, hs] using complete
      exact rest.mono hlead.evolves
  | _ => cases hdone

/-- A pass that is to be made again is made after some time. -/
theorem later {W : Type} {K : Contract RequestStore W} {w : W}
    (h : K.Exits settings r now w outcome) (usable : settings.fault? = none)
    (regular : now.inLeapSecond = false) {d : Duration} (hd : outcome = .requeue d) :
    0 < d.nanos := by
  cases h with
  | resting | ended => cases hd
  | early hearly =>
      obtain rfl := Outcome.requeue.inj hd
      exact Instant.since_pos hearly regular
  | polls =>
      obtain rfl := Outcome.requeue.inj hd
      exact Settings.jobPoll_pos usable
  | delayed h =>
      obtain rfl := Outcome.requeue.inj hd
      obtain ⟨m, -, hearly, rfl⟩ := Config.nextStep_delay h
      rw [Duration.nanos_sub]
      exact Nat.sub_pos_of_lt hearly
  | escalates =>
      obtain rfl := Outcome.requeue.inj hd
      decide

end Contract.Exits

/-! ### Runs -/

/-- What the outcome of a pass promises: a request that is done with is at rest, and another one is
looked at again after some time. -/
structure Outcome.Kept (settings : Settings) (now : Instant) (l : Ledger) (outcome : Outcome) :
    Prop where
  atRest : outcome = .done → l.AtRest
  later : settings.fault? = none → now.inLeapSecond = false →
    ∀ d, outcome = .requeue d → 0 < d.nanos

theorem Outcome.Kept.stable (settings : Settings) (now : Instant) :
    historyContract.Stable fun l (result : Except TaskError Outcome) =>
      ∀ outcome, result = .ok outcome → outcome.Kept settings now l :=
  fun _ _ _ hl h outcome hresult =>
    ⟨fun hdone => ((h outcome hresult).atRest hdone).mono hl, (h outcome hresult).later⟩

/-- A pass that is repeated keeps what its outcome promises. -/
theorem reconcile_kept {settings : Settings} {r : Request} {now : Instant} {l : Ledger}
    (hl : l.Chronicle) (hr : r ∈ l.revisions) :
    Task.Keeps historyContract (Outcome.Kept settings now) (reconcile settings r now) l := by
  refine .weaken hl ((historyGuide settings).reconcile_ends hl hr) fun l' outcome _ hends => ?_
  rcases hends with ⟨r', l₁, hr', hlead, hexits⟩ | ⟨rfl, l₀, name, v, -, hgone, hlead⟩
  · have hstored : r' ∈ l'.revisions := hlead.evolves.past.subset hr'
    exact ⟨hexits.atRest hstored, fun usable regular d => hexits.later usable regular⟩
  · exact ⟨fun _ => .inl (hlead.evolves.gone (hgone none rfl)), fun _ _ _ hd => nomatch hd⟩

/-- **No request is forgotten.**  Copies of any revision of a request are worked on side by side, in
any number and with any settings, while others change the surroundings and calls fail in any way.
If a pass over one of them is done with its request, this one is gone or has ended.  If it is to be
made again, with usable settings and at a time that is not a leap second, some time passes
before. -/
theorem requests_not_forgotten {l : Ledger} {r₀ r : Request}
    {t₀ t : Traffic RequestStore (Except TaskError Outcome) Ledger} {k : Nat} {settings : Settings}
    {now : Instant} {outcome : Outcome} (hstart : l.revisions = [r₀])
    (hversion : r₀.metadata.resourceVersion.isSome)
    (hrun₀ : Traffic.Run (Ledger.rules (fun _ => True) Ledger.Around) (.quiet l) t₀)
    (free : t₀.running k = none) (hr : r ∈ t₀.site.revisions)
    (hrun : Traffic.Run (Ledger.rules (fun _ => True) Ledger.Around)
      (t₀.resume k t₀.site (reconcile settings r now).run) t)
    (hended : t.running k = some (.done (.ok outcome))) :
    (outcome = .done → ∀ r', t.site.latest? = some r' → r'.isComplete = true) ∧
      (settings.fault? = none → now.inLeapSecond = false →
        ∀ d, outcome = .requeue d → 0 < d.nanos) := by
  have binds := historyContract_binds fun _ => True
  have hl : l.Chronicle := ⟨.single hstart hversion, by simp [hstart]⟩
  have quiet : Traffic.Orderly historyContract (fun _ _ => True)
      (Traffic.quiet l : Traffic RequestStore (Except TaskError Outcome) Ledger) := .quiet hl
  have orderly₀ := (quiet.run binds hrun₀).2
  have begun : Traffic.Step (Ledger.rules (fun _ => True) Ledger.Around) t₀
      (t₀.resume k t₀.site (reconcile settings r now).run) :=
    .begin free ⟨settings, r, now, trivial, hr, rfl⟩
  have orderly := (orderly₀.step binds begun).2
  have hkept : Task.Keeps historyContract (Outcome.Kept settings now)
      (reconcile settings r now) t₀.site := reconcile_kept orderly₀.holds hr
  obtain ⟨p, hp, hpost⟩ :=
    orderly.follow binds (Outcome.Kept.stable settings now) (Function.update_self _ _ _) hkept hrun
  obtain rfl := Option.some.inj (hended.symm.trans hp)
  have kept : outcome.Kept settings now t.site := hpost outcome rfl
  have hsite := (orderly.run binds hrun).2.holds
  exact ⟨fun hdone r' latest => (kept.atRest hdone).isComplete hsite latest, kept.later⟩

/-- Without a configuration a new request is done with, for it is ended.  With one it is made again
once its job may have got on. -/
theorem requests_not_forgotten_ended_or_polled :
    (∃ t : Traffic RequestStore (Except TaskError Outcome) Ledger,
      t.running 0 = some (.done (.ok .done)) ∧ t.site.revisions.length = 2 ∧
        ∀ r, t.site.latest? = some r → r.isComplete = true) ∧
      ∃ (t : Traffic RequestStore (Except TaskError Outcome) Ledger) (d : Duration),
        t.running 0 = some (.done (.ok (.requeue d))) ∧ t.site.revisions.length = 2 ∧
          0 < d.nanos := by
  have shown (l : Ledger) :
      (Ledger.rules (fun _ => True) Ledger.Around).shows l ⟨0, 0⟩ := trivial
  have begun (l : Ledger) : Traffic.Run (Ledger.rules (fun _ => True) Ledger.Around)
      ((Traffic.quiet l).resume 0 l (reconcile {} newRequest ⟨0, 0⟩).run)
      ((Traffic.quiet l).resume 0 l (reconcile {} newRequest ⟨0, 0⟩).run) := .refl
  constructor
  · have fresh : newRequestStart.Fresh (some "2") := ⟨rfl, by decide⟩
    obtain ⟨t, hrun, hsite, hrunning⟩ := (begun newRequestStart).moves (k := 0) rfl <|
      .head (.call (.effect .nodeLabels)) <| .head (.call (.effect .configs)) <|
      .head (.clock (shown _)) <| .single (.call (.effect (.landed rfl (.inr rfl) fresh)))
    have hended : t.running 0 = some (.done (.ok .done)) := by rw [hrunning]; rfl
    have rest := requests_not_forgotten rfl rfl .refl rfl (List.mem_singleton_self _) hrun hended
    exact ⟨t, hended, by rw [hsite]; rfl, rest.1 rfl⟩
  · obtain ⟨t, hrun, hsite, hrunning⟩ := (begun dispatchStart).moves (k := 0) rfl <|
      .head (.call (.effect .nodeLabels)) <| .head (.call (.effect .configs)) <|
      .head (.clock (shown _)) <| .head (.clock (shown _)) <|
      .head (.call (.effect (.created (dispatchStart_free _)))) <| .head (.clock (shown _)) <|
      .single (.call (.effect (.landed rfl (.inr rfl) (dispatchStart_fresh _))))
    have hended : t.running 0 =
        some (.done (.ok (.requeue ({} : Settings).dispatch.jobPoll))) := by rw [hrunning]; rfl
    have rest := requests_not_forgotten rfl rfl .refl rfl (List.mem_singleton_self _) hrun hended
    exact ⟨t, _, hended, by rw [hsite]; rfl, rest.2 (by decide) (by decide) _ rfl⟩

end NodeFencing
