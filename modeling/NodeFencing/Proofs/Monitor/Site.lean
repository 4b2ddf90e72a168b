import NodeFencing.Monitor.Memory
import NodeFencing.Proofs.Monitor.Shift

/-!
# A store that is shared and may fail

A call to the store may fail before it takes effect, or after that, when only the answer is
lost; the monitor does not learn which.  Between its calls others end requests or delete
them.  They make none, and they do not turn a request into one for another node.

## Main Definitions

* `MonitorMemory.Serves` — how a call is answered, and what it does to the store
* `Request.Continues`, `MonitorMemory.Dwindles` — what others do to requests
* `MonitorMemory.shared` — the rules of such a store

## Main statements

* `MonitorMemory.apply_create` — a request is taken if its name is free
* `MonitorMemory.effect` — all that a call can do to the requests
* `MonitorMemory.dwindles_complete`, `MonitorMemory.dwindles_delete` — what others may do
-/

namespace NodeFencing

theorem Monitor.isOutstanding_iff {node : String} {r : Request} :
    isOutstanding node r = true ↔ r.target = node ∧ r.isComplete = false := by
  rw [isOutstanding, Bool.and_eq_true, beq_iff_eq, Bool.not_eq_true']

/-- A request as it is later: still the same one, and not open again if it has ended. -/
structure Request.Continues (r r' : Request) : Prop where
  name : r'.name = r.name
  target : r'.target = r.target
  label : r'.metadata.label? Request.targetLabel = r.metadata.label? Request.targetLabel
  ended : r.isComplete = true → r'.isComplete = true

theorem Request.Continues.refl (r : Request) : r.Continues r :=
  ⟨rfl, rfl, rfl, id⟩

theorem Request.Continues.outstanding {r r' : Request} {node : String} (h : r.Continues r')
    (outstanding : Monitor.isOutstanding node r' = true) : Monitor.isOutstanding node r = true := by
  rw [Monitor.isOutstanding_iff, h.target] at outstanding
  obtain ⟨htarget, hopen⟩ := outstanding
  refine Monitor.isOutstanding_iff.mpr ⟨htarget, Bool.eq_false_iff.mpr fun hended => ?_⟩
  rw [h.ended hended] at hopen
  cases hopen

namespace MonitorMemory

/-- How a call is answered, and what it does to the store: it may fail, before or after it takes
effect. -/
inductive Serves (w : MonitorMemory) (c : MonitorCall) :
    Except TaskError c.Value → MonitorMemory → Prop
  | works : Serves w c (w.apply c).1 (w.apply c).2
  | refuses (e : TaskError) : Serves w c (.error e) w
  | breaks (e : TaskError) : Serves w c (.error e) (w.apply c).2

/-- Requests are deleted or go on, and none is added. -/
def Dwindles (w w' : MonitorMemory) : Prop :=
  ∃ later : Request → Option Request, w'.requests = w.requests.filterMap later ∧
    ∀ r r', later r = some r' → r.Continues r'

/-- The rules of a store that is shared with others and may fail. -/
def shared : Monitor.SiteRules MonitorMemory where
  begins _ _ := False
  answers := Serves
  changes := Dwindles

variable {w w' : MonitorMemory}

theorem Dwindles.refl (w : MonitorMemory) : w.Dwindles w :=
  ⟨some, List.filterMap_some.symm, fun _ _ h => Option.some.inj h ▸ .refl _⟩

/-- A request that is still there was there before. -/
theorem Dwindles.before (h : w.Dwindles w') {r' : Request} (hr : r' ∈ w'.requests) :
    ∃ r ∈ w.requests, r.Continues r' := by
  obtain ⟨later, hrequests, continues⟩ := h
  rw [hrequests, List.mem_filterMap] at hr
  obtain ⟨r, hmem, hlater⟩ := hr
  exact ⟨r, hmem, continues r r' hlater⟩

/-- Of the open requests for a node there are no more than before. -/
theorem Dwindles.countP_le (h : w.Dwindles w') (node : String) :
    w'.requests.countP (Monitor.isOutstanding node) ≤
      w.requests.countP (Monitor.isOutstanding node) := by
  obtain ⟨later, hrequests, continues⟩ := h
  rw [hrequests, List.countP_filterMap]
  refine List.countP_mono_left fun r _ outstanding => ?_
  cases hlater : later r with
  | none => simp [hlater] at outstanding
  | some r' =>
      rw [hlater] at outstanding
      exact (continues r r' hlater).outstanding outstanding

/-- Others may end a request. -/
theorem dwindles_complete (w : MonitorMemory) (name : String) : w.Dwindles (w.complete name) := by
  refine ⟨some ∘ fun r => if r.name == name then { r with status := some { complete := true } }
    else r, (congrFun List.filterMap_eq_map _).symm, fun r r' h => ?_⟩
  obtain rfl := Option.some.inj h
  dsimp only
  split
  · exact ⟨rfl, rfl, rfl, fun _ => rfl⟩
  · exact .refl r

/-- Others may delete a request. -/
theorem dwindles_delete (w : MonitorMemory) (name : String) :
    w.Dwindles (w.apply (.deleteRequest name)).2 := by
  refine ⟨Option.guard (·.name != name), (congrFun List.filterMap_eq_filter _).symm,
    fun r r' h => ?_⟩
  obtain ⟨rfl, -⟩ := Option.guard_eq_some_iff.mp h
  exact .refl r

/-- A request is taken if and only if its name is free. -/
theorem apply_create (w : MonitorMemory) (r : Request) :
    ((∃ q ∈ w.requests, q.name = r.name) ∧
      w.apply (.createRequest r) = (.error (.alreadyExists r.name), w)) ∨
    ((∀ q ∈ w.requests, q.name ≠ r.name) ∧
      w.apply (.createRequest r) = (.ok (), { w with requests := w.requests ++ [r] })) := by
  by_cases taken : w.requests.any (·.name == r.name) = true
  · obtain ⟨q, hq, hname⟩ := List.any_eq_true.mp taken
    exact .inl ⟨⟨q, hq, beq_iff_eq.mp hname⟩, if_pos taken⟩
  · refine .inr ⟨fun q hq hname => taken ?_, if_neg taken⟩
    exact List.any_eq_true.mpr ⟨q, hq, beq_iff_eq.mpr hname⟩

/-- **All that a call can do** to the requests: some are deleted, or one of a free name is added. -/
theorem effect (w : MonitorMemory) (c : MonitorCall) : w.Dwindles (w.apply c).2 ∨
    ∃ r, c = .createRequest r ∧ (∀ q ∈ w.requests, q.name ≠ r.name) ∧
      (w.apply c).2.requests = w.requests ++ [r] := by
  cases c with
  | requestsFor target => exact .inl (.refl w)
  | deleteRequest name => exact .inl (w.dwindles_delete name)
  | durableWorkloads node => exact .inl (.refl w)
  | createRequest r =>
      rcases w.apply_create r with ⟨-, happly⟩ | ⟨free, happly⟩
      · rw [happly]
        exact .inl (.refl w)
      · rw [happly]
        exact .inr ⟨r, rfl, free, rfl⟩

namespace Serves

variable {c : MonitorCall} {a : Except TaskError c.Value}

/-- A call is answered as it should be, or it fails and takes effect or does not. -/
theorem outcome (h : w.Serves c a w') : (a = (w.apply c).1 ∧ w' = (w.apply c).2) ∨
    ∃ e, a = .error e ∧ (w' = w ∨ w' = (w.apply c).2) := by
  cases h with
  | works => exact .inl ⟨rfl, rfl⟩
  | refuses e => exact .inr ⟨e, rfl, .inl rfl⟩
  | breaks e => exact .inr ⟨e, rfl, .inr rfl⟩

/-- Whatever the answer is, the call takes effect or does not. -/
theorem stays_or_applies (h : w.Serves c a w') : w' = w ∨ w' = (w.apply c).2 := by
  rcases h.outcome with ⟨-, applied⟩ | ⟨e, -, hw'⟩
  · exact .inr applied
  · exact hw'

/-- What is listed are the requests with the label of a node. -/
theorem listed {target : String} {listed : List Request}
    (h : w.Serves (.requestsFor target) (.ok listed) w') :
    w' = w ∧ listed = w.requests.filter fun r =>
      r.metadata.label? Request.targetLabel == some (labelValue target) := by
  cases h
  exact ⟨rfl, rfl⟩

end Serves

end MonitorMemory

/-! ### A node that has failed -/

/-- A node that has not been heard of since the beginning of 1970. -/
def Node.unheard (name : String) : Node where
  metadata := { name := some name }
  conditions := [{ type := "Ready", status := "Unknown", lastTransition := some ⟨0, 0⟩ }]

end NodeFencing
