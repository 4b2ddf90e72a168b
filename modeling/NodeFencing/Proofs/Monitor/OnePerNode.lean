import NodeFencing.Proofs.Monitor.Calls
import NodeFencing.Proofs.Monitor.Site

/-!
# At most one open request for a node

Nothing in the store keeps two open requests for one node apart.  That there is one at most
is due to the monitor alone: before it makes a request, it looks for an open one, and it
finds one if there is one, for all of them carry the label of their node.  While it is
asking for a request, the answers may get lost; but it asks for one name only, and a name
is given once.

So while a request for a node is asked for, any open request for this node has the name
that is asked for, see `MonitorMemory.Spares`.  Others do not change that, and neither does
a call whose answer is lost.

## Main Definitions

* `MonitorMemory.OnePerNode` — at most one open request for each node, with its label
* `MonitorMemory.Spares` — no open request for a node but one of some name
* `MonitorMemory.sparing` — the contract while a request of some name is asked for

## Main statements

* `MonitorMemory.sparing_binds` — the store keeps its side of the contract
* `Monitor.react_onePerNode` — what one signal does
* `Monitor.Attends.onePerNode` — at most one open request for each node, in every state of a run
-/

namespace NodeFencing

open Monitor (isOutstanding)

namespace MonitorMemory

/-- At most one open request for each node; the open ones carry the label of their node. -/
structure OnePerNode (w : MonitorMemory) : Prop where
  single : ∀ node, w.requests.countP (isOutstanding node) ≤ 1
  labelled : ∀ r ∈ w.requests, r.isComplete = false →
    r.metadata.label? Request.targetLabel = some (labelValue r.target)

/-- There is no open request for a node but one of some name. -/
def Spares (node name : String) (w : MonitorMemory) : Prop :=
  ∀ r ∈ w.requests, isOutstanding node r = true → r.name = name

variable {w w' : MonitorMemory} {node name : String} {r : Request}

/-! ### What others do -/

theorem OnePerNode.dwindles (h : w.OnePerNode) (hw : w.Dwindles w') : w'.OnePerNode := by
  constructor
  · intro node
    exact Nat.le_trans (hw.countP_le node) (h.single node)
  · intro r' hr' hopen'
    obtain ⟨r, hr, continues⟩ := hw.before hr'
    have hopen : r.isComplete = false := by
      refine Bool.eq_false_iff.mpr fun hended => ?_
      rw [continues.ended hended] at hopen'
      cases hopen'
    rw [continues.label, continues.target]
    exact h.labelled r hr hopen

theorem Spares.dwindles (h : w.Spares node name) (hw : w.Dwindles w') : w'.Spares node name := by
  intro r' hr' outstanding
  obtain ⟨r, hr, continues⟩ := hw.before hr'
  rw [continues.name]
  exact h r hr (continues.outstanding outstanding)

/-! ### A new request -/

/-- Where only requests of one name could be open and no request has this name, none is open. -/
theorem Spares.none (h : w.Spares node name) (free : ∀ q ∈ w.requests, q.name ≠ name) :
    w.requests.countP (isOutstanding node) = 0 := by
  rw [List.countP_eq_zero]
  intro q hq outstanding
  exact free q hq (h q hq outstanding)

theorem OnePerNode.add (h : w.OnePerNode) (hspares : w.Spares r.target r.name)
    (free : ∀ q ∈ w.requests, q.name ≠ r.name)
    (label : r.metadata.label? Request.targetLabel = some (labelValue r.target))
    (added : w'.requests = w.requests ++ [r]) : w'.OnePerNode := by
  constructor
  · intro node
    rw [added, List.countP_append, List.countP_singleton]
    by_cases hnode : isOutstanding node r = true
    · have none_open := hspares.none free
      rw [(Monitor.isOutstanding_iff.mp hnode).1] at none_open
      rw [if_pos hnode]
      omega
    · rw [if_neg hnode]
      exact h.single node
  · intro q hq hopen
    rw [added, List.mem_append] at hq
    rcases hq with hold | hnew
    · exact h.labelled q hold hopen
    · rw [List.mem_singleton.mp hnew]
      exact label

theorem Spares.add (h : w.Spares node r.name) (added : w'.requests = w.requests ++ [r]) :
    w'.Spares node r.name := by
  intro q hq outstanding
  rw [added, List.mem_append] at hq
  rcases hq with hold | hnew
  · exact h q hold outstanding
  · rw [List.mem_singleton.mp hnew]

/-! ### The contract -/

/-- The contract while a request of some name is asked for a node. -/
def sparing (node name : String) : Contract MonitorStore MonitorMemory where
  holds := OnePerNode
  evolves w w' := w.Spares node name → w'.Spares node name
  permits w
    | .createRequest r => w.Spares node name ∧ r.target = node ∧ r.name = name ∧
      r.metadata.label? Request.targetLabel = some (labelValue r.target)
    | _ => True
  reports w' c a := ∃ w : MonitorMemory, w.Serves c a w'
  evolves_refl _ := id
  evolves_trans h h' := h' ∘ h
  permits_mono {_ _ c} hw h := by
    cases c with
    | createRequest r => exact h.imp_left hw
    | _ => trivial

/-- The effect of a call that is permitted. -/
theorem sparing_applies {c : MonitorCall} (hw : w.OnePerNode)
    (permitted : (sparing node name).permits w c) : (sparing node name).Leads w (w.apply c).2 := by
  rcases w.effect c with dwindles | ⟨r, rfl, free, added⟩
  · exact ⟨fun h => h.dwindles dwindles, hw.dwindles dwindles⟩
  · obtain ⟨hspares, rfl, rfl, label⟩ := permitted
    exact ⟨fun h => h.add added, hw.add hspares free label added⟩

theorem sparing_binds (node name : String) :
    (sparing node name).Binds (fun _ _ => True) shared where
  stable _ _ _ _ _ := trivial
  begins _ h := h.elim
  answers {w c a w'} hw permitted served := by
    refine ⟨?_, w, served⟩
    rcases served.stays_or_applies with rfl | rfl
    · exact .refl hw
    · exact sparing_applies hw permitted
  changes hw dwindles := ⟨fun h => h.dwindles dwindles, hw.dwindles dwindles⟩
  shows _ := trivial

/-- A listing without open requests for a node tells that there is none, and there is none of
another name as long as the contract is kept. -/
theorem sparing_told {listed : List Request}
    (told : (sparing node name).Told w w' (.requestsFor node)
      (Except.ok listed : Except TaskError (List Request)))
    (none_open : ∀ q ∈ listed, isOutstanding node q = false) : w'.Spares node name := by
  obtain ⟨v, hlead, ⟨u, served⟩, hlead'⟩ := told
  obtain ⟨rfl, rfl⟩ := served.listed
  refine hlead'.evolves fun r hr outstanding => ?_
  obtain ⟨htarget, hopen⟩ := Monitor.isOutstanding_iff.mp outstanding
  -- An open request carries the label of its node, and so would have been listed.
  have label := hlead.holds.labelled r hr hopen
  rw [htarget] at label
  have found := none_open r (List.mem_filter.mpr ⟨hr, beq_iff_eq.mpr label⟩)
  rw [outstanding] at found
  cases found

end MonitorMemory

namespace Monitor

open MonitorMemory (OnePerNode shared sparing sparing_binds sparing_told)

variable {w₀ w : MonitorMemory} {m₀ m : Monitor} {notice : Notice}
  {past : List (Handling MonitorMemory)} {rest : Reaction}

/-- Whatever a monitor does about a signal, it keeps such a contract. -/
theorem react_sparing (m : Monitor) (notice : Notice) (hw : w₀.OnePerNode) :
    ∃ node name, (m.react notice).Keeps (sparing node name) (fun _ _ => True) w₀ := by
  generalize hreact : m.react notice = reaction
  cases hreact ▸ m.plan notice with
  | rests quiet same => exact ⟨"", "", trivial⟩
  | @raises node origin now m' grounds same =>
      -- All attempts are made under one name, which the time of the signal fixes.
      refine ⟨node, requestName node now.seconds, ?_⟩
      refine .bind hw (raise_keeps hw trivial (fun _ _ => trivial) ?_) fun _ _ _ _ => trivial
      intro w' listed workloads told none_open
      exact ⟨sparing_told told none_open, rfl, rfl, rfl⟩
  | @cancels node after clears ends =>
      exact ⟨node, "", cancels_keeps hw trivial (fun _ _ _ => trivial) ends⟩

/-- **What one signal does** leaves at most one open request for each node, and so it is at any
time on the way. -/
theorem react_onePerNode {had : List (Exchange MonitorStore MonitorMemory)} (hw : w₀.OnePerNode)
    (h : Program.Goes shared w₀ (m.react notice) had w rest) : w.OnePerNode := by
  obtain ⟨node, name, keeps⟩ := react_sparing m notice hw
  exact (keeps.goes (sparing_binds node name) hw h).1.holds

/-- **At most one open request for each node**, in every state that is reached from a store with at
most one: whatever signals there are, while others end or delete requests, and whether calls fail
before or after they take effect. -/
theorem Attends.onePerNode (h : m₀.Attends shared w₀ past w rest) (start : w₀.OnePerNode) :
    w.OnePerNode := by
  induction h with
  | begun => exact start
  | handles h goes ih => exact react_onePerNode ih goes

/-- A node that has not been heard of, and a request for it that was made although the answer said
otherwise: the second attempt to make it finds it. -/
theorem onePerNode_lost_answer : ∃ (past : List (Handling MonitorMemory)) (w : MonitorMemory)
    (m : Monitor),
    (({} : Monitor).Attends shared {} past w (.done (.ok .alreadyPending, m)) ∧
      ({} : MonitorMemory).OnePerNode) ∧
    w.requests.length = 1 ∧ w.OnePerNode := by
  have start : ({} : MonitorMemory).OnePerNode :=
    ⟨fun _ => Nat.zero_le 1, fun r hr => absurd hr List.not_mem_nil⟩
  have seen : Program.Goes shared {} (react {} (.seen (.unheard "rack-1") ⟨60, 0⟩)) [] {}
      (react {} (.seen (.unheard "rack-1") ⟨60, 0⟩)) := .begun
  have listed := Program.Goes.calls (R := shared) seen .works
  have told := Program.Goes.calls (R := shared) listed .works
  have lost := Program.Goes.calls (R := shared) told (.breaks (.api .unintelligible))
  have found := Program.Goes.calls (R := shared) lost.pauses
    (.refuses (.alreadyExists (requestName "rack-1" 60)))
  have attends := Attends.begun.handles found
  exact ⟨_, _, _, ⟨attends, start⟩, rfl, attends.onePerNode start⟩

end Monitor

end NodeFencing
