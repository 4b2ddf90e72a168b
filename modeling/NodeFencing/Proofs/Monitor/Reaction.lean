import NodeFencing.Monitor.Loop
import NodeFencing.Proofs.Monitor.Health
import NodeFencing.Proofs.Program.Passage

/-!
# What a monitor does about a signal

Because of a signal a monitor does one of three things: nothing at all, or it asks for a node
to be fenced, or it withdraws the requests for a node.  For either there have to be grounds in
the signal itself.  Apart from that it only remembers which nodes have settled; its settings
stay what they are, and what it does about requests does not depend on its memory.

The two programs that make calls are written out: each call that is made, and for each answer
what comes next.

## Main Definitions

* `Notice`, `Monitor.react` — a signal, and what the monitor does about it
* `Monitor.Becomes` — a monitor that has only learned which nodes have settled
* `Monitor.Grounds`, `Monitor.Clears` — when a node is fenced, and when its requests are withdrawn
* `Monitor.Plan` — the three things that a monitor may do
* `Monitor.propose`, `Monitor.withdraw` — make a request, and delete requests

## Main statements

* `Monitor.plan` — a monitor does nothing else
* `MonitorLoop.react_notice` — all that a monitor meets in a cluster are such signals
* `Monitor.raise_run`, `Monitor.cancel_run` — the programs
-/

namespace NodeFencing

/-! ### Signals -/

/-- A signal for the monitor. -/
inductive Notice where
  /-- The state of a node, as it is looked at some time. -/
  | seen (n : Node) (now : Instant)
  /-- A node is gone. -/
  | gone (node : String)
  /-- An event, with the node of that name if one is known. -/
  | event (e : Event) (known : Option Node) (now : Instant)
  deriving Repr, DecidableEq

namespace Monitor

/-- What a monitor does about a signal. -/
def react (m : Monitor) : Notice → Reaction
  | .seen n now => m.observe n now
  | .gone node => m.deleted node
  | .event e known now => m.problem e known now

/-- A monitor that differs from another one only in the nodes that have settled. -/
def Becomes (m m' : Monitor) : Prop :=
  ∃ settled, m' = { m with settled }

theorem Becomes.refl (m : Monitor) : m.Becomes m :=
  ⟨m.settled, rfl⟩

theorem Becomes.trans {m m' m'' : Monitor} (h : m.Becomes m') (h' : m'.Becomes m'') :
    m.Becomes m'' := by
  obtain ⟨_, rfl⟩ := h
  obtain ⟨settled, rfl⟩ := h'
  exact ⟨settled, rfl⟩

theorem becomes_unsettle (m : Monitor) (node : String) : m.Becomes (m.unsettle node) :=
  ⟨_, rfl⟩

/-- How requests are deleted does not depend on which nodes have settled. -/
theorem deleteAll_unsettle (m : Monitor) (node : String) (requests : List Request) :
    (m.unsettle node).deleteAll requests = m.deleteAll requests := by
  induction requests with
  | nil => rfl
  | cons r rest ih =>
      rw [deleteAll, ih]
      rfl

theorem cancel_unsettle (m : Monitor) (node other : String) :
    (m.unsettle other).cancel node = m.cancel node := by
  unfold cancel
  simp only [deleteAll_unsettle]

theorem becomes_settle (m : Monitor) (node : String) : m.Becomes (m.settle node) := by
  unfold settle
  split
  · exact .refl m
  · exact ⟨_, rfl⟩

/-! ### Grounds -/

/-- An event that counts: a warning of a component that is listed. -/
structure Heeded (m : Monitor) (e : Event) : Prop where
  warns : e.type = some "Warning"
  listed : e.reporter ∈ m.health.problemSources

theorem heeds_iff (m : Monitor) (e : Event) : m.heeds e = true ↔ m.Heeded e := by
  rw [heeds, Bool.and_eq_true, beq_iff_eq, List.contains_iff_mem]
  exact ⟨fun ⟨warns, listed⟩ => ⟨warns, listed⟩, fun h => ⟨h.warns, h.listed⟩⟩

/-- A node that is ready again, and has been for long enough if the settings ask for that.  The time
is nothing if it is not known since when the node is ready, or if that is still to come. -/
structure Trusted (m : Monitor) (n : Node) (now : Instant) : Prop where
  enabled : m.health.recovery ≠ .disabled
  ready : ∃ since, n.ReadySince since ∧ ∀ seconds, m.health.recovery = .afterStable seconds →
    Duration.ofSeconds seconds ≤ (since.map now.since).getD {}

/-- A signal gives grounds for fencing a node: it shows the node lost, or it is an event that counts
and the node that is known is lost, or such events count by themselves and it comes from the
node. -/
inductive Grounds (m : Monitor) : Notice → String → Prop
  | seen {n now} (lost : n.Lost now m.health.window) :
      Grounds m (.seen n now) n.metadata.nameOrBase
  | known {e n now} (heeded : m.Heeded e) (lost : n.Lost now m.health.window) :
      Grounds m (.event e (some n) now) n.metadata.nameOrBase
  | reported {e known now node} (policy : m.health.fenceOnProblemEvents = true)
      (heeded : m.Heeded e) (about : e.node? = some node) : Grounds m (.event e known now) node

/-- A signal clears a node: it shows the node ready again, or it is an event that counts and the
node that is known is ready again, or the node is gone. -/
inductive Clears (m : Monitor) : Notice → String → Prop
  | seen {n now} (trusted : m.Trusted n now) : Clears m (.seen n now) n.metadata.nameOrBase
  | known {e n now} (heeded : m.Heeded e) (trusted : m.Trusted n now) :
      Clears m (.event e (some n) now) n.metadata.nameOrBase
  | gone {node} (enabled : m.health.recovery ≠ .disabled) : Clears m (.gone node) node

theorem Clears.enabled {m : Monitor} {notice : Notice} {node : String}
    (h : m.Clears notice node) : m.health.recovery ≠ .disabled := by
  cases h with
  | seen trusted => exact trusted.enabled
  | known _ trusted => exact trusted.enabled
  | gone enabled => exact enabled

namespace Becomes

variable {m m' : Monitor} {notice : Notice} {node : String}

/-- An event counts, whichever nodes have settled. -/
theorem heeded (h : m.Becomes m') {e : Event} (he : m'.Heeded e) : m.Heeded e := by
  obtain ⟨_, rfl⟩ := h
  exact ⟨he.warns, he.listed⟩

/-- Grounds do not depend on which nodes have settled. -/
theorem grounds (h : m.Becomes m') (hg : m'.Grounds notice node) : m.Grounds notice node := by
  have hhealth : m'.health = m.health := by
    obtain ⟨_, rfl⟩ := h
    rfl
  cases hg with
  | seen lost => exact .seen (hhealth ▸ lost)
  | known heeded lost => exact .known (h.heeded heeded) (hhealth ▸ lost)
  | reported policy heeded about => exact .reported (hhealth ▸ policy) (h.heeded heeded) about

/-- Whether a node is cleared does not depend on which nodes have settled. -/
theorem clears (h : m.Becomes m') (hc : m'.Clears notice node) : m.Clears notice node := by
  have trusted {n now} (ht : m'.Trusted n now) : m.Trusted n now := by
    obtain ⟨_, rfl⟩ := h
    exact ⟨ht.enabled, ht.ready⟩
  cases hc with
  | seen ht => exact .seen (trusted ht)
  | known heeded ht => exact .known (h.heeded heeded) (trusted ht)
  | gone enabled =>
      obtain ⟨_, rfl⟩ := h
      exact .gone enabled

end Becomes

/-- What a monitor does because of a signal: nothing, or it asks for a node to be fenced, or it
withdraws the requests for a node. -/
inductive Plan (m : Monitor) (notice : Notice) : Reaction → Prop
  | rests {action m'} (quiet : action = .none ∨ ∃ remaining, action = .suspect remaining)
      (same : m.Becomes m') : Plan m notice (.done (.ok action, m'))
  | raises {node origin now m'} (grounds : m.Grounds notice node) (same : m.Becomes m') :
      Plan m notice ((m.raise node origin now).run.bind fun outcome => .done (outcome, m'))
  | cancels {node after} (clears : m.Clears notice node)
      (ends : ∀ outcome, ∃ m', after outcome = .done (outcome, m') ∧ m.Becomes m') :
      Plan m notice ((m.cancel node).run.bind after)

variable {m : Monitor} {notice : Notice} {n : Node} {now : Instant}

theorem trusted_of_stable {since : Option Instant} (enabled : m.health.recovery ≠ .disabled)
    (ready : n.ReadySince since) (stable : m.isStable since now = true) : m.Trusted n now := by
  refine ⟨enabled, since, ready, fun seconds hpolicy => ?_⟩
  simp only [isStable, hpolicy] at stable
  cases since with
  | none => exact of_decide_eq_true stable
  | some since => exact of_decide_eq_true stable

theorem recovered_plan {node : String} {since : Option Instant} (ready : n.ReadySince since)
    (clears : m.Trusted n now → m.Clears notice node) :
    m.Plan notice (m.recovered node since now) := by
  unfold recovered
  split
  · exact .rests (.inl rfl) (.refl m)
  · split
    · exact .rests (.inl rfl) (m.becomes_settle node)
    · next enabled =>
        split
        · exact .rests (.inl rfl) (.refl m)
        · next stable =>
            have trusted : m.Trusted n now :=
              trusted_of_stable enabled ready (by simpa using stable)
            refine .cancels (clears trusted) fun outcome => ?_
            cases outcome with
            | ok action => exact ⟨_, rfl, m.becomes_settle node⟩
            | error e => exact ⟨_, rfl, .refl m⟩

/-- Looking at a node, whatever is the reason. -/
theorem observe_plan
    (grounds : n.Lost now m.health.window → m.Grounds notice n.metadata.nameOrBase)
    (clears : m.Trusted n now → m.Clears notice n.metadata.nameOrBase) :
    m.Plan notice (m.observe n now) := by
  have unsettled := m.becomes_unsettle n.metadata.nameOrBase
  unfold observe
  cases hhealth : n.health now m.health.window with
  | healthy since => exact recovered_plan (Node.readySince_iff.mpr hhealth) clears
  | failed since => exact .raises (grounds (Node.lost_iff.mpr ⟨since, hhealth⟩)) unsettled
  | suspect remaining => exact .rests (.inr ⟨remaining, rfl⟩) unsettled
  | notReady => exact .rests (.inl rfl) unsettled
  | unknown => exact .rests (.inl rfl) unsettled

/-- **What a monitor does because of a signal** is nothing, or there are grounds for it. -/
theorem plan (m : Monitor) (notice : Notice) : m.Plan notice (m.react notice) := by
  cases notice with
  | seen n now => exact observe_plan .seen .seen
  | gone node =>
      have unsettled := m.becomes_unsettle node
      simp only [react, deleted]
      split
      · exact .rests (.inl rfl) unsettled
      · next enabled =>
          rw [cancel_unsettle]
          exact .cancels (.gone enabled) fun outcome => ⟨_, rfl, unsettled⟩
  | event e known now =>
      have heeded {node} (habout : (if m.heeds e then e.node? else none) = some node) :
          m.Heeded e ∧ e.node? = some node := by
        by_cases h : m.heeds e = true
        · rw [if_pos h] at habout
          exact ⟨(m.heeds_iff e).mp h, habout⟩
        · rw [if_neg h] at habout
          cases habout
      simp only [react, problem]
      cases habout : if m.heeds e then e.node? else none with
      | none => exact .rests (.inl rfl) (.refl m)
      | some node =>
          dsimp only
          split
          · next policy =>
              obtain ⟨counts, about⟩ := heeded habout
              exact .raises (.reported policy counts about) (.refl m)
          · cases known with
            | none => exact .rests (.inl rfl) (.refl m)
            | some n => exact observe_plan (.known (heeded habout).1) (.known (heeded habout).1)

end Monitor

/-- All that a monitor reacts to in a cluster are such signals. -/
theorem MonitorLoop.react_notice {l l' : MonitorLoop} {now : Instant} {s : Signal} {p : Reaction}
    (h : l.react now s = (some p, l')) : ∃ notice, p = l.monitor.react notice := by
  have hfirst : (l.react now s).1 = some p := congrArg Prod.fst h
  cases s with
  | look n => exact ⟨.seen n now, (Option.some.inj hfirst).symm⟩
  | node c =>
      cases c with
      | listing => cases hfirst
      | listed n => exact ⟨.seen n now, (Option.some.inj hfirst).symm⟩
      | settled => cases hfirst
      | applied n => exact ⟨.seen n now, (Option.some.inj hfirst).symm⟩
      | deleted n => exact ⟨.gone _, (Option.some.inj hfirst).symm⟩
  | event c =>
      cases c with
      | applied e => exact ⟨.event e _ now, (Option.some.inj hfirst).symm⟩
      | listing => cases hfirst
      | listed e => cases hfirst
      | settled => cases hfirst
      | deleted e => cases hfirst

/-! ### The programs -/

namespace Monitor

open Program (call done)

variable (m : Monitor) (node : String)

/-- What is taken to run on a node, if nothing can be found out about it. -/
def workloadsTold : Except TaskError (List String) → List String
  | .ok workloads => workloads
  | .error _ => []

/-- Ask for a request to be made, and tell whether it is a new one. -/
def submit (request : Request) : MonitorStore.Action Bool :=
  (MonitorStore.createRequest request).bind fun
    | .ok () => done (.ok true)
    | .error e => done (if e.meansExists then .ok false else .error e)

/-- What has come of a request that was asked for. -/
def submitted (request : Request) : Except TaskError Bool → Except TaskError MonitorAction
  | .ok true => .ok (.created request.name)
  | .ok false => .ok .alreadyPending
  | .error e => .error e

/-- Ask for a request to be made, some times if need be, and tell what has come of it. -/
def propose (request : Request) : MonitorStore.Action MonitorAction :=
  (Program.retry m.backoff (submit request)).bind fun created => done (submitted request created)

theorem raise_run (origin : String) (now : Instant) :
    (m.raise node origin now).run =
      (MonitorStore.requestsFor node).bind fun (listed : Except TaskError (List Request)) =>
        match listed with
        | .error e => done (.error e)
        | .ok listed =>
          if (listed.filter (isOutstanding node)).isEmpty then
            (MonitorStore.durableWorkloads node).bind fun (told : Except TaskError (List String)) =>
              m.propose (m.newRequest node origin (workloadsTold told) now)
          else done (.ok .alreadyPending) := by
  have proposes (workloads : List String) :
      (do
        let request := m.newRequest node origin workloads now
        let created ← ExceptT.mk (Program.retry m.backoff (submit request))
        return if created then .created request.name else .alreadyPending :
          MonitorTask MonitorAction).run =
        m.propose (m.newRequest node origin workloads now) := by
    refine congrArg (Program.bind _) (funext fun created => ?_)
    match created with
    | .ok true => rfl
    | .ok false => rfl
    | .error e => rfl
  refine congrArg (call (I := MonitorStore) (.requestsFor node)) (funext fun listed => ?_)
  match listed with
  | .error e => rfl
  | .ok listed =>
    by_cases hopen : (listed.filter (isOutstanding node)).isEmpty = true
    · refine Eq.trans ?_ (if_pos hopen).symm
      refine (if_neg (by rw [hopen]; decide)).trans ?_
      refine congrArg (call (I := MonitorStore) (.durableWorkloads node)) (funext fun told => ?_)
      cases told with
      | ok workloads => exact proposes workloads
      | error e => exact proposes []
    · refine Eq.trans ?_ (if_neg hopen).symm
      refine (if_pos (by simpa using hopen)).trans ?_
      rfl

/-- Delete open requests, and tell how many, if there are any. -/
def withdraw (requests : List Request) : MonitorStore.Action MonitorAction :=
  if requests.isEmpty then done (.ok .none)
  else (m.deleteAll requests).bind fun count => done (.ok (.cancelled count))

theorem cancel_run :
    (m.cancel node).run =
      (MonitorStore.requestsFor node).bind fun (listed : Except TaskError (List Request)) =>
        match listed with
        | .error e => done (.error e)
        | .ok listed => m.withdraw (listed.filter (isOutstanding node)) := by
  refine congrArg (call (I := MonitorStore) (.requestsFor node)) (funext fun listed => ?_)
  match listed with
  | .error e => rfl
  | .ok listed =>
    refine ite_congr rfl (fun _ => rfl) (fun _ => ?_)
    exact Program.bind_assoc _ _ _

end Monitor

end NodeFencing
