import NodeFencing.Proofs.Monitor.Calls
import NodeFencing.Proofs.Monitor.Site

/-!
# Whether a failed node is fenced

A node that has failed should have an open request once it was looked at.  It has one if
there was one already, or if the new request is made.  The store refuses the new request if
its name is taken, and the monitor takes that for its own request, made by a call whose answer
was lost.  It need not be: the name holds the node in a form that other nodes may share, and
the time in whole seconds.  So the name may be that of a request for another node, or of one
for this node that has ended in the same second.  Then the monitor says that a request is
pending although there is none.

What runs on the node is told in the request and makes no other difference.

## Main Definitions

* `MonitorMemory.Truthful`, `MonitorMemory.alone` — a store that does not refuse a free name
* `MonitorMemory.naming` — the contract while a request of some name may be added
* `Monitor.setAside` — what runs on the node is told in one way and not passed on

## Main statements

* `Monitor.raise_setAside` — what runs on the node makes no other difference
* `Monitor.observe_fenced_iff` — when a failed node has an open request
* `Monitor.collision_unfenced` — a failed node that has none
-/

namespace NodeFencing

open Monitor (isOutstanding)

/-! ### A store that tells the truth -/

namespace MonitorMemory

/-- If the answer to a request is that it exists, then there is one of its name. -/
def Truthful (w : MonitorMemory) : (c : MonitorCall) → Except TaskError c.Value → Prop
  | .createRequest r, .error e => e.meansExists = true → ∃ q ∈ w.requests, q.name = r.name
  | _, _ => True

/-- The rules of a store on which nobody else works.  Its calls may fail, but it refuses no free
name. -/
def alone : Monitor.SiteRules MonitorMemory where
  begins _ _ := False
  answers w c a w' := w.Serves c a w' ∧ w'.Truthful c a
  changes _ _ := False

variable {w w' : MonitorMemory} {base : List Request} {node name : String}

/-- A request that was taken is there. -/
theorem Serves.created {r : Request}
    (h : w.Serves (.createRequest r) (Except.ok () : Except TaskError Unit) w') :
    r ∈ w'.requests := by
  obtain ⟨ha, rfl⟩ | ⟨e, he, -⟩ := h.outcome
  · rcases w.apply_create r with ⟨-, happly⟩ | ⟨-, happly⟩
    · rw [happly] at ha
      cases ha
    · rw [happly]
      exact List.mem_append_right _ (List.mem_singleton_self r)
  · cases he

/-! ### The contract -/

/-- The contract while a request of some name may be added for a node, if the name is free. -/
def naming (base : List Request) (node name : String) : Contract MonitorStore MonitorMemory where
  holds w := w.requests = base ∨ ∃ r, w.requests = base ++ [r] ∧ r.name = name ∧
    isOutstanding node r = true ∧ ∀ q ∈ base, q.name ≠ name
  evolves w w' := w.requests <+: w'.requests
  permits _
    | .createRequest r => r.name = name ∧ isOutstanding node r = true
    | .deleteRequest _ => False
    | _ => True
  reports w' c a := (∃ w : MonitorMemory, w.Serves c a w') ∧ w'.Truthful c a
  evolves_refl _ := List.prefix_rfl
  evolves_trans := List.IsPrefix.trans
  permits_mono _ h := h

/-- The effect of a call that is permitted: a request is added once at most. -/
theorem naming_applies {c : MonitorCall} (hw : (naming base node name).holds w)
    (permitted : (naming base node name).permits w c) :
    (naming base node name).Leads w (w.apply c).2 := by
  cases c with
  | requestsFor target => exact .refl hw
  | durableWorkloads target => exact .refl hw
  | deleteRequest other => exact permitted.elim
  | createRequest r =>
      obtain ⟨rfl, outstanding⟩ := permitted
      rcases w.apply_create r with ⟨-, happly⟩ | ⟨free, happly⟩
      · rw [happly]
        exact .refl hw
      · rw [happly]
        refine ⟨List.prefix_append _ _, .inr ?_⟩
        rcases hw with rfl | ⟨q, hadded, hname, -, -⟩
        · exact ⟨r, rfl, rfl, outstanding, free⟩
        · -- The one that was added before has the name, which then is not free.
          refine absurd hname (free q ?_)
          rw [hadded]
          exact List.mem_append_right _ (List.mem_singleton_self q)

theorem naming_binds {α : Type} {post : MonitorMemory → α → Prop}
    (stable : (naming base node name).Stable post) :
    (naming base node name).Binds post (alone.serving α) where
  stable := stable
  begins _ h := h.elim
  answers {w c a w'} hw permitted answered := by
    obtain ⟨served, truthful⟩ := answered
    refine ⟨?_, ⟨w, served⟩, truthful⟩
    rcases served.stays_or_applies with rfl | rfl
    · exact .refl hw
    · exact naming_applies hw permitted
  changes _ h := h.elim
  shows _ := trivial

end MonitorMemory

/-! ### What runs on the node -/

namespace Monitor

variable {m m' : Monitor} {node origin : String} {now since : Instant} {n : Node}

/-- The calls as they are, but for what runs on the node: that is told in one way, and left out of
requests. -/
def setAside (told : Except TaskError (List String)) :
    (c : MonitorStore.Call) → Program MonitorStore (MonitorStore.Answer c)
  | MonitorCall.requestsFor target => MonitorStore.requestsFor target
  | MonitorCall.createRequest r => MonitorStore.createRequest { r with affectedWorkloads := [] }
  | MonitorCall.deleteRequest name => MonitorStore.deleteRequest name
  | MonitorCall.durableWorkloads _ => .done told

theorem propose_setAside (told : Except TaskError (List String)) (r : Request) :
    (m.propose r).translate (setAside told) = m.propose { r with affectedWorkloads := [] } := by
  have submits : (submit r).translate (setAside told) =
      submit { r with affectedWorkloads := [] } := by
    refine congrArg (Program.call (I := MonitorStore) (.createRequest _)) (funext fun answer => ?_)
    match answer with
    | .ok () => rfl
    | .error e => rfl
  rw [propose, Program.translate_bind, Program.translate_retry, submits]
  refine congrArg (Program.bind _) (funext fun created => ?_)
  match created with
  | .ok true => rfl
  | .ok false => rfl
  | .error e => rfl

/-- **What runs on the node** makes no difference but that it is told in the request. -/
theorem raise_setAside (told : Except TaskError (List String)) :
    (m.raise node origin now).run.translate (setAside told) =
      (MonitorStore.requestsFor node).bind fun (listed : Except TaskError (List Request)) =>
        match listed with
        | .error e => .done (.error e)
        | .ok listed =>
          if (listed.filter (isOutstanding node)).isEmpty then
            m.propose (m.newRequest node origin [] now)
          else .done (.ok .alreadyPending) := by
  rw [raise_run, Program.translate_bind]
  -- Both sides list first; what was told is only met where no open request was listed.
  refine congrArg (Program.bind (MonitorStore.requestsFor node)) (funext fun listed => ?_)
  match listed with
  | .error e => rfl
  | .ok listed =>
    by_cases hopen : (listed.filter (isOutstanding node)).isEmpty = true
    · simp only [if_pos hopen]
      exact propose_setAside told _
    · simp only [if_neg hopen]
      rfl

/-! ### The outcome -/

variable {w₀ w : MonitorMemory} {had : List (Exchange MonitorStore MonitorMemory)}
  {action : MonitorAction} {name : String}

/-- What is known of the requests when a node was to be fenced, by one of some name. -/
def Meets (node name : String) (w : MonitorMemory) : Except TaskError MonitorAction → Prop
  | .ok (.created made) => ∃ r ∈ w.requests, r.name = made ∧ isOutstanding node r = true
  | .ok .alreadyPending => (∃ r ∈ w.requests, isOutstanding node r = true) ∨
      ∃ r ∈ w.requests, r.name = name
  | .ok _ => False
  | .error _ => True

theorem Meets.mono {w w' : MonitorMemory} (hw : w.requests <+: w'.requests)
    {outcome : Except TaskError MonitorAction} (h : Meets node name w outcome) :
    Meets node name w' outcome := by
  match outcome with
  | .ok (.created made) =>
    obtain ⟨r, hr, hmade⟩ := h
    exact ⟨r, hw.subset hr, hmade⟩
  | .ok .alreadyPending =>
    rcases h with ⟨r, hr, hopen⟩ | ⟨r, hr, hname⟩
    · exact .inl ⟨r, hw.subset hr, hopen⟩
    · exact .inr ⟨r, hw.subset hr, hname⟩
  | .ok (.cancelled _) | .ok (.suspect _) | .ok .none => exact h
  | .error e => trivial

theorem newRequest_outstanding (workloads : List String) :
    isOutstanding node (m.newRequest node origin workloads now) = true :=
  isOutstanding_iff.mpr ⟨rfl, rfl⟩

/-- What is known when a node was to be fenced, in terms of the requests that are there. -/
theorem Raised.meets {base : List Request}
    {outcome : Except TaskError MonitorAction}
    (h : Raised (MonitorMemory.naming base node (requestName node now.seconds)) w₀ m node origin now
      w outcome) : Meets node (requestName node now.seconds) w outcome := by
  cases h with
  | pending told hq outstanding =>
      obtain ⟨v, -, ⟨⟨u, served⟩, -⟩, hlead⟩ := told
      obtain ⟨rfl, rfl⟩ := served.listed
      exact .inl ⟨_, hlead.evolves.subset (List.mem_filter.mp hq).1, outstanding⟩
  | @proposed workloads outcome h =>
      match outcome with
      | .ok (.created made) =>
        obtain ⟨rfl, v, -, ⟨⟨u, served⟩, -⟩, hlead⟩ := h
        exact ⟨_, hlead.evolves.subset served.created, rfl, newRequest_outstanding workloads⟩
      | .ok .alreadyPending =>
        obtain ⟨e, hexists, v, -, ⟨-, truthful⟩, hlead⟩ := h
        obtain ⟨q, hq, hname⟩ := truthful hexists
        exact .inr ⟨q, hlead.evolves.subset hq, hname⟩
      | .ok (.cancelled _) | .ok (.suspect _) | .ok .none => exact h
      | .error e => trivial
  | fails => trivial

/-- A node that has failed is to be fenced. -/
theorem observe_failed (failed : n.health now m.health.window = .failed since) :
    ∃ origin m', m.observe n now =
      (m.raise n.metadata.nameOrBase origin now).run.bind fun outcome => .done (outcome, m') := by
  refine ⟨"node-health-monitor: Ready=Unknown since " ++ since.text,
    m.unsettle n.metadata.nameOrBase, ?_⟩
  simp only [observe, failed]
  rfl

/-- A look at a failed node keeps the contract, and what is told of it is so. -/
theorem observe_naming (failed : n.health now m.health.window = .failed since) :
    (m.observe n now).Keeps (MonitorMemory.naming w₀.requests n.metadata.nameOrBase
        (requestName n.metadata.nameOrBase now.seconds))
      (fun w result => Meets n.metadata.nameOrBase (requestName n.metadata.nameOrBase now.seconds) w
        result.1) w₀ := by
  obtain ⟨origin, m', hobserve⟩ := observe_failed failed
  rw [hobserve]
  refine .bind (.inl rfl) (raise_keeps (.inl rfl) trivial (fun _ _ => trivial) ?_) ?_
  · exact fun _ _ workloads _ _ => ⟨rfl, newRequest_outstanding workloads⟩
  · exact fun w outcome _ raised => raised.meets

/-- **When a failed node has an open request.**  Once it was looked at without a failure, there is
one if and only if there was one before or the name for a new request was free.  If one was
made, it is there; only that one is pending may be told without reason.  What runs on the node
makes no difference but that it is told in the request. -/
theorem observe_fenced_iff (failed : n.health now m.health.window = .failed since)
    (goes : Program.Goes MonitorMemory.alone w₀ (m.observe n now) had w (.done (.ok action, m'))) :
    ((∃ r ∈ w.requests, isOutstanding n.metadata.nameOrBase r = true) ↔
      (∃ r ∈ w₀.requests, isOutstanding n.metadata.nameOrBase r = true) ∨
        ∀ r ∈ w₀.requests, r.name ≠ requestName n.metadata.nameOrBase now.seconds) ∧
    (action = .alreadyPending ∨ ∃ r ∈ w.requests, action = .created r.name ∧
      isOutstanding n.metadata.nameOrBase r = true) ∧
    ∀ told told', (m.observe n now).translate (setAside told) =
      (m.observe n now).translate (setAside told') := by
  obtain ⟨hlead, meets, -⟩ := (observe_naming failed).goes
    (MonitorMemory.naming_binds fun _ _ _ hprefix h => h.mono hprefix) (.inl rfl) goes.serving
  refine ⟨⟨?_, ?_⟩, ?_, ?_⟩
  · rintro ⟨r, hr, hopen⟩
    rcases hlead.holds with same | ⟨q, -, -, -, free⟩
    · exact .inl ⟨r, same ▸ hr, hopen⟩
    · exact .inr free
  · rintro (⟨r, hr, hopen⟩ | free)
    · exact ⟨r, hlead.evolves.subset hr, hopen⟩
    · match action with
      | .created made =>
        obtain ⟨r, hr, -, hopen⟩ := meets
        exact ⟨r, hr, hopen⟩
      | .alreadyPending =>
        rcases meets with hopen | ⟨q, hq, hname⟩
        · exact hopen
        · -- The request of this name is the one that was added, for before there was none.
          rcases hlead.holds with same | ⟨r, added, -, hopen, -⟩
          · exact absurd hname (free q (same ▸ hq))
          · exact ⟨r, added ▸ List.mem_append_right _ (List.mem_singleton_self r), hopen⟩
      | .cancelled _ | .suspect _ | .none => exact meets.elim
  · match action with
    | .created made =>
      obtain ⟨r, hr, rfl, hopen⟩ := meets
      exact .inr ⟨r, hr, rfl, hopen⟩
    | .alreadyPending => exact .inl rfl
    | .cancelled _ | .suspect _ | .none => exact meets.elim
  · intro told told'
    obtain ⟨origin, m'', hobserve⟩ := observe_failed failed
    rw [hobserve, Program.translate_bind, Program.translate_bind, raise_setAside, raise_setAside]
    rfl

/-! ### Two nodes -/

/-- The request for a node that has not been heard of, made a minute after the beginning of 1970. -/
def fencing (node : String) : Request :=
  ({} : Monitor).newRequest node
    ("node-health-monitor: Ready=Unknown since " ++ Instant.text ⟨0, 0⟩) [] ⟨60, 0⟩

/-- Where there are no requests, such a node gets its own. -/
theorem unheard_fenced (node : String) : ∃ had m',
    Program.Goes MonitorMemory.alone {} (observe {} (.unheard node) ⟨60, 0⟩) had
      { requests := [fencing node] } (.done (.ok (.created (requestName node 60)), m')) := by
  have seen : Program.Goes MonitorMemory.alone {} (observe {} (.unheard node) ⟨60, 0⟩) [] {}
      (observe {} (.unheard node) ⟨60, 0⟩) := .begun
  have listed := Program.Goes.calls (R := MonitorMemory.alone) seen ⟨.works, trivial⟩
  have told := Program.Goes.calls (R := MonitorMemory.alone) listed ⟨.works, trivial⟩
  exact ⟨_, _, Program.Goes.calls (R := MonitorMemory.alone) told ⟨.works, trivial⟩⟩

/-- A failed node for which there is no request gets one. -/
theorem observe_fenced_iff_unheard : ∃ (had : List (Exchange MonitorStore MonitorMemory))
    (w : MonitorMemory) (m' : Monitor),
    ((Node.unheard "rack-1").health ⟨60, 0⟩ (HealthSettings.window {}) = .failed ⟨0, 0⟩ ∧
      Program.Goes MonitorMemory.alone {} (observe {} (.unheard "rack-1") ⟨60, 0⟩) had w
        (.done (.ok (.created (requestName "rack-1" 60)), m'))) ∧
    ((∃ r ∈ w.requests, isOutstanding "rack-1" r = true) ↔
      (∃ r ∈ ({} : MonitorMemory).requests, isOutstanding "rack-1" r = true) ∨
        ∀ r ∈ ({} : MonitorMemory).requests, r.name ≠ requestName "rack-1" 60) ∧
    (MonitorAction.created (requestName "rack-1" 60) = .alreadyPending ∨
      ∃ r ∈ w.requests, .created (requestName "rack-1" 60) = MonitorAction.created r.name ∧
        isOutstanding "rack-1" r = true) ∧
    ∀ told told', (observe {} (.unheard "rack-1") ⟨60, 0⟩).translate (setAside told) =
      (observe {} (.unheard "rack-1") ⟨60, 0⟩).translate (setAside told') := by
  have failed : (Node.unheard "rack-1").health ⟨60, 0⟩ (HealthSettings.window {}) =
      .failed ⟨0, 0⟩ := by decide
  obtain ⟨had, m', made⟩ := unheard_fenced "rack-1"
  exact ⟨had, _, m', ⟨failed, made⟩, observe_fenced_iff (m := {}) failed made⟩

/-- Nodes of one form share the names of their requests. -/
theorem requestName_congr {node other : String} (h : dnsLabel node = dnsLabel other)
    (seconds : Int) : requestName node seconds = requestName other seconds := by
  rw [requestName, requestName, h]

/-- **A failed node that has no request**, although one is said to be pending.  Of two nodes that
have failed the first gets its request; the second is looked at in the same second, and the
name for its request is taken by the first. -/
theorem collision_unfenced : ∃ w : MonitorMemory,
    (∃ had m, Program.Goes MonitorMemory.alone {} (observe {} (.unheard "rack.1") ⟨60, 0⟩) had w
      (.done (.ok (.created (requestName "rack.1" 60)), m))) ∧
    (∀ r ∈ w.requests,
      r.metadata.label? Request.targetLabel = some (labelValue r.target)) ∧
    (Node.unheard "rack-1").health ⟨60, 0⟩ (HealthSettings.window {}) = .failed ⟨0, 0⟩ ∧
    ∃ had w' m, Program.Goes MonitorMemory.alone w (observe {} (.unheard "rack-1") ⟨60, 0⟩) had w'
        (.done (.ok .alreadyPending, m)) ∧
      ¬ ∃ r ∈ w'.requests, r.target = "rack-1" ∧ r.isComplete = false := by
  refine ⟨{ requests := [fencing "rack.1"] }, unheard_fenced "rack.1", fun r hr => ?_, by decide,
    ?_⟩
  · obtain rfl := List.mem_singleton.mp hr
    rfl
  · have taken : requestName "rack.1" 60 = requestName "rack-1" 60 :=
      requestName_congr (by decide) 60
    have seen : Program.Goes MonitorMemory.alone { requests := [fencing "rack.1"] }
        (observe {} (.unheard "rack-1") ⟨60, 0⟩) [] { requests := [fencing "rack.1"] }
        (observe {} (.unheard "rack-1") ⟨60, 0⟩) := .begun
    have listed := Program.Goes.calls (R := MonitorMemory.alone) seen ⟨.works, trivial⟩
    have told := Program.Goes.calls (R := MonitorMemory.alone) listed ⟨.works, trivial⟩
    have refused := Program.Goes.calls (R := MonitorMemory.alone) told
      ⟨.refuses (.alreadyExists (requestName "rack-1" 60)),
        fun _ => ⟨fencing "rack.1", List.mem_singleton_self _, taken⟩⟩
    refine ⟨_, _, _, refused, ?_⟩
    rintro ⟨r, hr, htarget, -⟩
    rw [List.mem_singleton.mp hr] at htarget
    exact absurd htarget (by decide)

end Monitor

end NodeFencing
