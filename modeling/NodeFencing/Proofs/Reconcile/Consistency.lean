import NodeFencing.Proofs.Reconcile.Entry
import NodeFencing.Proofs.Reconcile.History

/-!
# Statuses whose parts fit together

The parts of a status depend on each other.  A job belongs to a method in use, and a method
to a configuration.  A request has a result just when it has ended; then it has no job any
more, and the last entry of its log, and no other, says how it has ended.

A pass changes these parts one by one, and in other combinations at each of its exits.  That
they fit together while the request goes on is kept by every single change, so it does not
matter which of them are made.  To end the request is a change of another kind: it is made
once, from a status that goes on, and nothing is changed behind it.

## Main Definitions

* `Result.isFinal` — the milestones that end a request
* `Update.IsEnding` — an entry that says how a request has ended
* `Status.Consistent` — a status whose parts fit together
* `Status.Open` — such a status of a request that goes on

## Main statements

* `Status.Open.choosing`, `Status.Open.observing`, `Status.Open.selecting`,
  `Status.Open.dispatched` — the changes while a request goes on
* `Status.Open.finalize` — the end of a request
* `consistencyGuide` — passes keep the contract
* `written_statuses_consistent` — the statuses that are written in a run
-/

namespace NodeFencing

/-! ### Endings -/

/-- The milestones that end a request. -/
def Result.isFinal : Result → Bool
  | success | noConfig | givingUp => true
  | _ => false

/-- An entry that says how a request has ended. -/
def Update.IsEnding (u : Update) : Prop :=
  u.method = none ∧
    ∃ result detail, result.isFinal = true ∧ u.message = Status.message result detail

/-- An entry is an ending only if its milestone is. -/
theorem Update.IsEnding.isFinal {u : Update} {result : Result} {detail : String}
    (h : u.IsEnding) (hu : u.message = Status.message result detail) : result.isFinal = true := by
  obtain ⟨-, final, detail', hfinal, hmessage⟩ := h
  obtain ⟨rfl, -⟩ := Status.message_inj (hu.symm.trans hmessage)
  exact hfinal

namespace Status

/-- A status whose parts fit together. -/
structure Consistent (s : Status) : Prop where
  /-- There is a result just when the request has ended. -/
  result : s.result.isSome = s.complete
  final : ∀ result, s.result = some result → result.isFinal = true
  /-- A request that has ended has no job, and a job belongs to a method of a configuration. -/
  idle : s.complete = true → s.activeJob = none
  method : s.activeJob.isSome = true → s.activeMethod.isSome = true
  config : s.activeMethod.isSome = true → s.config.isSome = true
  /-- Only without a configuration a request ends in another way. -/
  chosen : s.result = some .success ∨ s.result = some .givingUp → s.config.isSome = true
  /-- The last entry of the log, and no other, says how the request has ended. -/
  unended : s.complete = false → ∀ u ∈ s.updates, ¬ u.IsEnding
  ended : s.complete = true →
    ∃ past last, s.updates = past ++ [last] ∧ last.IsEnding ∧ ∀ u ∈ past, ¬ u.IsEnding

/-- A status of a request that goes on, whose parts fit together. -/
structure Open (s : Status) : Prop where
  complete : s.complete = false
  result : s.result = none
  method : s.activeJob.isSome = true → s.activeMethod.isSome = true
  config : s.activeMethod.isSome = true → s.config.isSome = true
  unended : ∀ u ∈ s.updates, ¬ u.IsEnding

/-- A request has ended just if its log says so. -/
theorem Consistent.complete_iff {s : Status} (h : s.Consistent) :
    s.complete = true ↔ ∃ u ∈ s.updates, u.IsEnding := by
  constructor
  · intro hc
    obtain ⟨past, last, hlog, hending, -⟩ := h.ended hc
    exact ⟨last, hlog ▸ List.mem_append_right _ (List.mem_singleton_self _), hending⟩
  · rintro ⟨u, hu, hending⟩
    cases hc : s.complete with
    | true => rfl
    | false => exact absurd hending (h.unended hc u hu)

theorem Consistent.isOpen {s : Status} (h : s.Consistent) (complete : s.complete = false) :
    s.Open where
  complete := complete
  result := by simpa [complete] using h.result
  method := h.method
  config := h.config
  unended := h.unended complete

namespace Open

variable {s s' : Status} {t : Instant}

theorem initial : ({} : Status).Open where
  complete := rfl
  result := rfl
  method := nofun
  config := nofun
  unended := nofun

theorem consistent (h : s.Open) : s.Consistent where
  result := by rw [h.result, h.complete]; rfl
  final result hresult := nomatch h.result.symm.trans hresult
  idle complete := absurd complete (by simp [h.complete])
  method := h.method
  config := h.config
  chosen hresult := by simp [h.result] at hresult
  unended _ := h.unended
  ended complete := absurd complete (by simp [h.complete])

/-- The log may be longer by an entry that is not an ending. -/
theorem record (h : s.Open) (method : Option String) {result : Result}
    (hresult : result.isFinal = false) (detail : String) (error : Option String) :
    (s.record t method result detail error).Open where
  complete := h.complete
  result := h.result
  method := h.method
  config := h.config
  unended u hu hending := by
    rcases List.mem_append.mp hu with hold | hnew
    · exact h.unended u hold hending
    · obtain rfl := List.mem_singleton.mp hnew
      have hfinal := hending.isFinal rfl
      simp [hresult] at hfinal

/-- Without a job, whatever is in use. -/
theorem jobless (h : s.Open) : Open { s with activeJob := none } :=
  { h with method := nofun }

theorem choosing (h : s.Open) (c : Config) : (s.choosing c t).Open := by
  unfold Status.choosing
  split
  · exact h
  · split
    · have anew : Open { s with config := some c.name, activeMethod := none, activeJob := none } :=
        { h with method := nofun, config := nofun }
      exact anew.record none rfl c.name none
    · have first : Open { s with config := some c.name } :=
        { h with config := fun _ => rfl }
      exact first.record none rfl c.name none

theorem observing (h : s.Open) {method : String} (active : s.activeMethod = some method)
    (jobs : List Job) : (s.observing method jobs t).Open := by
  unfold Status.observing
  split
  · exact { h with method := fun _ => by simp [active] }
  · exact (h.record (some method) rfl "" none).jobless
  · exact (h.record (some method) rfl "" (some "job failed")).jobless
  · exact (h.record (some method) rfl "" (some "job not found")).jobless
  · exact h

theorem selecting (h : s.Open) (config : s.config.isSome = true) (method : String) :
    (s.selecting method t).Open := by
  have selected : Open { s with activeMethod := some method, activeJob := none } :=
    { h with method := nofun, config := fun _ => config }
  exact selected.record (some method) rfl "" none

theorem dispatched (h : s.Open) {method : String} (active : s.activeMethod = some method)
    (job : String) : (s.dispatched method job t).Open := by
  have created : Open { s with activeJob := some job } :=
    { h with method := fun _ => by simp [active] }
  exact created.record (some method) rfl job none

/-- **The end of a request.**  With success, or when it is given up, it has a configuration. -/
theorem finalize (h : s.Open) {result : Result} (hresult : result.isFinal = true)
    (config : result = .noConfig ∨ s.config.isSome = true) (detail : String)
    (error : Option String) : (s.finalize t result detail error).Consistent where
  result := rfl
  final _ hfinal := Option.some.inj hfinal ▸ hresult
  idle _ := rfl
  method := nofun
  config := h.config
  chosen hchosen := by
    rcases config with rfl | config
    · rcases hchosen with hchosen | hchosen <;> cases hchosen
    · exact config
  unended complete := nomatch complete
  ended _ := ⟨s.updates, _, rfl, ⟨rfl, result, detail, hresult, rfl⟩, h.unended⟩

end Open

end Status

/-! ### The contract -/

/-- Under this contract a status is written only if its parts fit together. -/
def consistencyContract : Contract RequestStore Ledger where
  holds l := ∀ r ∈ l.revisions, ∀ s, r.status = some s → s.Consistent
  evolves _ _ := True
  permits _
    | .patchStatus _ _ s => s.Consistent
    | _ => True
  reports := Ledger.Tells
  evolves_refl _ := trivial
  evolves_trans _ _ := trivial
  permits_mono _ h := h

/-- What a pass over an open revision begins with. -/
theorem Request.open_status {r : Request} (h : ∀ s, r.status = some s → s.Consistent)
    (hopen : r.isComplete = false) : (r.status.getD {}).Open := by
  cases hs : r.status with
  | none => exact .initial
  | some s => exact (h s hs).isOpen (by simpa [isComplete, hs] using hopen)

/-- Passes keep the contract, from whichever revision they start. -/
def consistencyGuide (settings : Settings) : Guide consistencyContract settings where
  knows _ r := ∀ s, r.status = some s → s.Consistent
  chosen _ _ _ s := s.Open ∧ s.config.isSome = true
  seen _ _ _ s _ := s.Open ∧ s.config.isSome = true
  knows_mono _ h := h
  chosen_mono _ h := h
  seen_mono _ h := h
  reads c hc := by
    cases c with
    | patchStatus => cases hc
    | _ => trivial
  latest hl hrep := hl _ (Ledger.mem_of_latest? (hrep _ rfl))
  rejects hr hopen _ := (Request.open_status hr hopen).finalize rfl (.inl rfl) _ _
  chooses hr hopen _ :=
    ⟨(Request.open_status hr hopen).choosing _, by rw [Status.config_choosing]; rfl⟩
  idle h _ := h
  looks h hactive _ := ⟨h.1.observing hactive _, by rw [Status.config_observing]; exact h.2⟩
  keeps h := h.1.consistent
  completes h _ := h.1.finalize rfl (.inr h.2) _ _
  exhausts h _ := h.1.finalize rfl (.inr h.2) _ _
  aborts h _ _ := ((h.1.selecting h.2 _).record _ rfl _ _).consistent
  creates _ _ _ := trivial
  dispatches h _ _ _ _ := ((h.1.selecting h.2 _).dispatched rfl _).consistent

/-- A ledger keeps its side of the contract. -/
theorem consistencyContract_binds :
    consistencyContract.Binds (fun _ _ => True)
      (Ledger.rules (fun _ => True) Ledger.Around) where
  stable _ _ _ _ _ := trivial
  begins hl h := by
    obtain ⟨settings, r, now, -, hr, rfl⟩ := h
    exact (consistencyGuide settings).reconcile hl (hl r hr)
  answers {l c a l'} hl hpermit hs := by
    refine ⟨⟨trivial, fun r hr s hstatus => ?_⟩, hs.tells⟩
    rcases hs.status_of_mem hr with hold | ⟨request, revision, s', r₀, new, rfl, -, rfl⟩
    · exact hl r hold s hstatus
    · obtain rfl : s' = s := Option.some.inj hstatus
      exact hpermit
  changes {l l'} hl h := by
    refine ⟨trivial, fun r hr s hstatus => ?_⟩
    cases h with
    | surroundings => exact hl r hr s hstatus
    | @edited r₀ r' latest same =>
        rcases List.mem_append.mp hr with hold | hnew
        · exact hl r hold s hstatus
        · obtain rfl := List.mem_singleton.mp hnew
          exact hl r₀ (Ledger.mem_of_latest? latest) s (same.symm.trans hstatus)
    | deleted => exact hl r hr s hstatus
  shows _ := trivial

/-! ### Runs -/

/-- **The parts of a status fit together.**  A request begins without a status, and copies of any of
its revisions are worked on side by side, in any number and with any settings, while others change
the surroundings and calls fail in any way.  Of every status that is then to be written the parts
fit together. -/
theorem written_statuses_consistent {l : Ledger} {r : Request}
    {t : Traffic RequestStore (Except TaskError Outcome) Ledger} (hstart : l.revisions = [r])
    (hnew : r.status = none)
    (hrun : Traffic.Run (Ledger.rules (fun _ => True) Ledger.Around) (.quiet l) t) {k : Nat}
    {p : Program RequestStore (Except TaskError Outcome)} {request : String}
    {revision : Option String} {s : Status} (busy : t.running k = some p)
    (hcall : p.pending? = some (.patchStatus request revision s)) : s.Consistent := by
  have hl : consistencyContract.holds l := by
    intro r' hr' s' hs'
    obtain rfl : r' = r := by simpa [hstart] using hr'
    exact nomatch hnew.symm.trans hs'
  have quiet : Traffic.Orderly consistencyContract (fun _ _ => True)
      (Traffic.quiet l : Traffic RequestStore (Except TaskError Outcome) Ledger) := .quiet hl
  exact ((quiet.run consistencyContract_binds hrun).2.keeps busy).permits_pending hcall

/-- Without a configuration a new request is to be ended. -/
theorem written_statuses_consistent_ended :
    ∃ (t : Traffic RequestStore (Except TaskError Outcome) Ledger)
      (p : Program RequestStore (Except TaskError Outcome)) (s : Status),
      Traffic.Run (Ledger.rules (fun _ => True) Ledger.Around) (.quiet newRequestStart) t ∧
      t.running 0 = some p ∧ p.pending? = some (.patchStatus "fence-node-1" (some "1") s) ∧
      s.complete = true ∧ s.Consistent := by
  have begun : (Ledger.rules (fun _ => True) Ledger.Around).begins newRequestStart
      (reconcile {} newRequest ⟨0, 0⟩).run :=
    ⟨{}, newRequest, ⟨0, 0⟩, trivial, List.mem_singleton_self _, rfl⟩
  have shown : (Ledger.rules (fun _ => True) Ledger.Around).shows newRequestStart ⟨0, 0⟩ := trivial
  have nothing : Traffic.Run (Ledger.rules (fun _ => True) Ledger.Around) (.quiet newRequestStart)
      (.quiet newRequestStart) := .refl
  obtain ⟨t, hrun, -, hrunning⟩ := nothing.begins 0 rfl begun <|
    .head (.call (.effect .nodeLabels)) <| .head (.call (.effect .configs)) <|
    .single (.clock shown)
  have busy := congrFun hrunning 0
  rw [Function.update_self] at busy
  exact ⟨t, _, _, hrun, busy, rfl, rfl, written_statuses_consistent rfl rfl hrun busy rfl⟩

end NodeFencing
