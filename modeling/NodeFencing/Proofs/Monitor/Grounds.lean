import NodeFencing.Proofs.Monitor.Calls
import NodeFencing.Proofs.Monitor.Site

/-!
# No node is fenced without grounds

A monitor asks for a node to be fenced only while it handles a signal that gives grounds for
that: see `Monitor.Grounds`.  It asks for the node to be switched off, at once, and in such a
way that the request is found again when the requests for the node are listed.  This is so
however the calls of the monitor are answered, and whatever others do.

## Main Definitions

* `Request.Fences` — a request to switch off a node at once
* `MonitorMemory.Lists` — a request that is found again
* `Monitor.Warrants` — the calls for which a signal is reason enough

## Main statements

* `Monitor.react_warranted` — because of a signal no other calls are made
* `Monitor.Attends.grounded` — every request that is made in a run has its grounds
-/

namespace NodeFencing

/-- A request to switch off a node at once, with the label of the node. -/
structure Request.Fences (r : Request) (node : String) : Prop where
  target : r.target = node
  operation : r.operation = .off
  ungated : r.notBefore = none
  label : r.metadata.label? Request.targetLabel = some (labelValue node)

/-- A store lists a request with those for a node. -/
def MonitorMemory.Lists (w : MonitorMemory) (node : String) (r : Request) : Prop :=
  ∃ listed : List Request, (w.apply (.requestsFor node)).1 = .ok listed ∧ r ∈ listed

theorem Request.Fences.listed {r : Request} {node : String} (h : r.Fences node)
    {w : MonitorMemory} (hr : r ∈ w.requests) : w.Lists node r := by
  refine ⟨_, rfl, ?_⟩
  rw [List.mem_filter, h.label]
  exact ⟨hr, beq_self_eq_true _⟩

namespace Monitor

variable {W : Type} {R : SiteRules W} {w₀ w : W} {m₀ m : Monitor} {notice : Notice}
  {node origin : String} {now : Instant} {past : List (Handling W)} {rest : Reaction}

theorem newRequest_fences (workloads : List String) :
    (m.newRequest node origin workloads now).Fences node where
  target := rfl
  operation := rfl
  ungated := rfl
  label := rfl

/-- The calls for which a signal is reason enough: only a request needs one. -/
def Warrants (m : Monitor) (notice : Notice) : MonitorCall → Prop
  | .createRequest r => m.Grounds notice r.target ∧ r.Fences r.target
  | _ => True

/-- **Because of a signal** no calls are made for which it is not reason enough. -/
theorem react_warranted (m : Monitor) (notice : Notice) (w : W) :
    (m.react notice).Keeps (.limits W (m.Warrants notice)) (fun _ _ => True) w := by
  generalize hreact : m.react notice = reaction
  cases hreact ▸ m.plan notice with
  | rests quiet same => trivial
  | raises grounds same =>
      refine .bind trivial (raise_keeps trivial trivial (fun _ _ => trivial) ?_)
        fun _ _ _ _ => trivial
      intro w' listed workloads told none_open
      exact ⟨grounds, newRequest_fences workloads⟩
  | cancels clears ends => exact cancels_keeps trivial trivial (fun _ _ _ => trivial) ends

/-- **No node is fenced without grounds.**  Whenever a request is made, the signal that is handled
gives grounds for fencing its target, in the settings with which the monitor has begun; and the
request is listed with the requests for its target by any store that holds it. -/
theorem Attends.grounded (h : m₀.Attends R w₀ past w rest) {t : Handling W} (ht : t ∈ past)
    {x : Exchange MonitorStore W} (hx : x ∈ t.exchanges) {r : Request}
    (creates : x.call = .createRequest r) :
    m₀.Grounds t.notice r.target ∧ r.Fences r.target ∧
      ∀ store : MonitorMemory, r ∈ store.requests → store.Lists r.target r := by
  obtain ⟨same, before, behind, goes⟩ := h.handled.2 t ht
  have warranted := ((react_warranted t.monitor t.notice before).within goes).1 x hx
  rw [creates] at warranted
  obtain ⟨grounds, fences⟩ := warranted
  exact ⟨same.grounds grounds, fences, fun store => fences.listed⟩

/-- A node that has not been heard of is fenced when it is seen. -/
theorem grounded_unheard : ∃ (past : List (Handling MonitorMemory)) (w : MonitorMemory)
    (rest : Reaction) (t : Handling MonitorMemory) (x : Exchange MonitorStore MonitorMemory)
    (r : Request),
    (({} : Monitor).Attends MonitorMemory.shared {} past w rest ∧ t ∈ past ∧ x ∈ t.exchanges ∧
      x.call = .createRequest r ∧ r.target = "rack-1") ∧
    ({} : Monitor).Grounds t.notice r.target ∧ r.Fences r.target ∧
      ∀ store : MonitorMemory, r ∈ store.requests → store.Lists r.target r := by
  have seen : Program.Goes MonitorMemory.shared {}
      (react {} (.seen (.unheard "rack-1") ⟨60, 0⟩)) [] {}
      (react {} (.seen (.unheard "rack-1") ⟨60, 0⟩)) := .begun
  have listed := Program.Goes.calls (R := MonitorMemory.shared) seen .works
  have told := Program.Goes.calls (R := MonitorMemory.shared) listed .works
  have made := Program.Goes.calls (R := MonitorMemory.shared) told .works
  have attends := Attends.begun.handles made
  exact ⟨_, _, _, _, _, _,
    ⟨attends, List.mem_append_right _ (List.mem_singleton_self _),
      List.mem_append_right _ (List.mem_singleton_self _), rfl, rfl⟩,
    attends.grounded (List.mem_append_right _ (List.mem_singleton_self _))
      (List.mem_append_right _ (List.mem_singleton_self _)) rfl⟩

end Monitor

end NodeFencing
