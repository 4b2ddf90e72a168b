import NodeFencing.Proofs.Monitor.Reaction

/-!
# The calls of a monitor, under a contract

A request is made only after the open requests for its node were looked for and none was
found.  What a contract says about that listing is therefore known to hold when the request
is submitted, and stays known while it is submitted again.  Withdrawing requests takes no
calls but a listing and deletions.

## Main Definitions

* `Monitor.Proposed`, `Monitor.Raised` — what is known when a request has been asked for

## Main statements

* `Monitor.raise_keeps` — asking for a node to be fenced
* `Monitor.cancel_keeps` — withdrawing the requests for a node
-/

namespace NodeFencing.Monitor

variable {W : Type} {K : Contract MonitorStore W} {w : W} {m : Monitor} {node origin : String}
  {now : Instant} {r : Request}

/-! ### Making a request -/

/-- What is known when a request was submitted: it was taken, or there is one of that name. -/
def Submitted (K : Contract MonitorStore W) (w : W) (r : Request) (w' : W) :
    Except TaskError Bool → Prop
  | .ok true => K.Told w w' (.createRequest r) (Except.ok () : Except TaskError Unit)
  | .ok false => ∃ e : TaskError, e.meansExists = true ∧
      K.Told w w' (.createRequest r) (Except.error e : Except TaskError Unit)
  | .error _ => True

/-- What is known when a request was asked for: it was made, or there is one of that name. -/
def Proposed (K : Contract MonitorStore W) (w : W) (r : Request) (w' : W) :
    Except TaskError MonitorAction → Prop
  | .ok (.created name) => name = r.name ∧ Submitted K w r w' (.ok true)
  | .ok .alreadyPending => Submitted K w r w' (.ok false)
  | .ok _ => False
  | .error _ => True

theorem submit_keeps {w₁ : W} (hlead : K.Leads w w₁)
    (permitted : K.permits w₁ (.createRequest r)) :
    (submit r).Keeps K (Submitted K w r) w₁ := by
  refine .bind hlead.holds (.ask permitted) fun w₂ answer hlead₂ told => ?_
  have told := told.mono hlead (.refl hlead₂.holds)
  match answer with
  | .ok () => exact told
  | .error e =>
    show Submitted K w r w₂ (if e.meansExists then .ok false else .error e)
    by_cases hexists : e.meansExists = true
    · rw [if_pos hexists]
      exact ⟨e, hexists, told⟩
    · rw [if_neg hexists]
      trivial

theorem propose_keeps {w₁ : W} (hlead : K.Leads w w₁)
    (permitted : ∀ w', K.Leads w₁ w' → K.permits w' (.createRequest r)) :
    (m.propose r).Keeps K (Proposed K w r) w₁ := by
  have submits (w₂) (hlead₂ : K.Leads w₁ w₂) : (submit r).Keeps K (Submitted K w r) w₂ :=
    submit_keeps (hlead.trans hlead₂) (permitted w₂ hlead₂)
  refine .bind hlead.holds (.retry m.backoff hlead.holds submits) fun w₂ created _ told => ?_
  match created with
  | .ok true => exact ⟨rfl, told⟩
  | .ok false => exact told
  | .error e => trivial

/-- What is known when a node was to be fenced: there is an open request, or one was asked for. -/
inductive Raised (K : Contract MonitorStore W) (w : W) (m : Monitor) (node origin : String)
    (now : Instant) (w' : W) : Except TaskError MonitorAction → Prop
  | pending {listed : List Request} {q}
      (told : K.Told w w' (.requestsFor node) (Except.ok listed : Except TaskError (List Request)))
      (hq : q ∈ listed) (outstanding : isOutstanding node q = true) :
      Raised K w m node origin now w' (.ok .alreadyPending)
  | proposed {workloads outcome}
      (h : Proposed K w (m.newRequest node origin workloads now) w' outcome) :
      Raised K w m node origin now w' outcome
  | fails {e} : Raised K w m node origin now w' (.error e)

/-- **Asking for a node to be fenced**: what the contract says of a listing without open requests
for the node has to permit that one is made. -/
theorem raise_keeps (hw : K.holds w) (lists : K.permits w (.requestsFor node))
    (asks : ∀ w', K.Leads w w' → K.permits w' (.durableWorkloads node))
    (creates : ∀ w' listed workloads,
      K.Told w w' (.requestsFor node) (Except.ok listed : Except TaskError (List Request)) →
      (∀ q ∈ listed, isOutstanding node q = false) →
      K.permits w' (.createRequest (m.newRequest node origin workloads now))) :
    (m.raise node origin now).run.Keeps K (Raised K w m node origin now) w := by
  rw [raise_run]
  refine .bind hw (.ask lists) fun w₁ listed hlead₁ told => ?_
  match listed with
  | .error e => exact .fails
  | .ok listed =>
    by_cases hopen : (listed.filter (isOutstanding node)).isEmpty = true
    · have none_open (q) (hq : q ∈ listed) : isOutstanding node q = false := by
        have hnil := List.filter_eq_nil_iff.mp (List.isEmpty_iff.mp hopen)
        exact Bool.eq_false_iff.mpr (hnil q hq)
      simp only [if_pos hopen]
      -- What the listing has told is still known when the workloads are, and at every attempt.
      refine .bind hlead₁.holds (.ask (asks w₁ hlead₁)) fun w₂ workloads hlead₂ _ => ?_
      have hlead := hlead₁.trans hlead₂
      have proposes := propose_keeps (m := m) hlead fun w₃ hlead₃ =>
        creates w₃ listed (workloadsTold workloads)
          (told.mono (.refl hw) (hlead₂.trans hlead₃)) none_open
      exact proposes.weaken hlead.holds fun _ _ _ h => .proposed h
    · simp only [if_neg hopen]
      obtain ⟨q, hq⟩ := List.isEmpty_eq_false_iff_exists_mem.mp (Bool.eq_false_iff.mpr hopen)
      obtain ⟨hmem, outstanding⟩ := List.mem_filter.mp hq
      exact .pending told hmem outstanding

/-! ### Withdrawing requests -/

theorem deleteAll_keeps (hw : K.holds w) {requests : List Request}
    (deletes : ∀ w', K.Leads w w' → ∀ r ∈ requests, K.permits w' (.deleteRequest r.name)) :
    (m.deleteAll requests).Keeps K (fun _ _ => True) w := by
  induction requests generalizing w with
  | nil => trivial
  | cons r rest ih =>
      have first (w') (hlead : K.Leads w w') :
          (MonitorStore.deleteRequest r.name).Keeps K (fun _ _ => True) w' :=
        ⟨deletes w' hlead r (List.mem_cons_self ..), fun _ _ _ _ => trivial⟩
      refine .bind hw (.retry m.backoff hw first) fun w₁ _ hlead _ => ?_
      refine .bind hlead.holds (ih hlead.holds ?_) fun _ _ _ _ => trivial
      exact fun w₂ hlead₂ q hq => deletes w₂ (hlead.trans hlead₂) q (List.mem_cons_of_mem _ hq)

theorem withdraw_keeps (hw : K.holds w) {requests : List Request}
    (deletes : ∀ w', K.Leads w w' → ∀ r ∈ requests, K.permits w' (.deleteRequest r.name)) :
    (m.withdraw requests).Keeps K (fun _ _ => True) w := by
  unfold withdraw
  split
  · trivial
  · exact .bind hw (deleteAll_keeps hw deletes) fun _ _ _ _ => trivial

/-- **Withdrawing the requests for a node** takes a listing and deletions. -/
theorem cancel_keeps (hw : K.holds w) (lists : K.permits w (.requestsFor node))
    (deletes : ∀ w', K.Leads w w' → ∀ name, K.permits w' (.deleteRequest name)) :
    (m.cancel node).run.Keeps K (fun _ _ => True) w := by
  rw [cancel_run]
  refine .bind hw (.ask lists) fun w₁ listed hlead₁ _ => ?_
  match listed with
  | .error e => trivial
  | .ok listed =>
    refine withdraw_keeps hlead₁.holds ?_
    exact fun w₂ hlead₂ r _ => deletes w₂ (hlead₁.trans hlead₂) r.name

/-- The same for a signal because of which requests are withdrawn. -/
theorem cancels_keeps {after : Except TaskError MonitorAction → Reaction} (hw : K.holds w)
    (lists : K.permits w (.requestsFor node))
    (deletes : ∀ w', K.Leads w w' → ∀ name, K.permits w' (.deleteRequest name))
    (ends : ∀ outcome, ∃ m', after outcome = .done (outcome, m') ∧ m.Becomes m') :
    ((m.cancel node).run.bind after).Keeps K (fun _ _ => True) w := by
  refine .bind hw (cancel_keeps hw lists deletes) fun w' outcome _ _ => ?_
  obtain ⟨m', hend, -⟩ := ends outcome
  rw [hend]
  trivial

end NodeFencing.Monitor
