import NodeFencing.Escalation
import NodeFencing.Proofs.Config.Usable

/-!
# The order of methods

The names of the methods of a usable configuration differ, and so does what is made of
them in names of jobs and in labels.  So the method that a status names is the one at its
place, and the next one is that behind it: a method is put in use only as the first of all,
or behind a method whose job has not fenced the node or whose success does not count.

## Main Definitions

* `JobState.passes` — the state of the jobs of a method that leads to the next method

## Main statements

* `Config.forms_pairwise` — the methods of a usable configuration differ in names of jobs and labels
* `Config.method?_eq` — a method is found by its name at its place
* `Config.nextStep_dispatch`, `Config.nextStep_delay`, `Config.nextStep_complete`,
  `Config.nextStep_exhausted` — when a method is put in use, when it is too early for it, when a
  request has succeeded, and when there is no method left
-/

namespace NodeFencing

/-! ### Names of methods -/

namespace Config

variable {c : Config}

/-- **The methods of a usable configuration differ**, in names of jobs as in labels. -/
theorem forms_pairwise (h : c.fault? = none) :
    c.methods.Pairwise fun m m' =>
      dnsLabel m.name ≠ dnsLabel m'.name ∧ labelValue m.name ≠ labelValue m'.name := by
  have usable := fault?_eq_none_iff.mp h
  exact (List.pairwise_map.mp usable.nameForms).and (List.pairwise_map.mp usable.labelForms)

theorem labelValue_pairwise (h : c.fault? = none) :
    c.methods.Pairwise fun m m' => labelValue m.name ≠ labelValue m'.name :=
  (forms_pairwise h).imp And.right

/-- A label tells the place of a method. -/
theorem index_of_labelValue (h : c.fault? = none) {i k : Nat} {m m' : Method}
    (hm : c.methods[i]? = some m) (hm' : c.methods[k]? = some m')
    (hlabel : labelValue m.name = labelValue m'.name) : i = k ∧ m = m' := by
  have pairwise := List.pairwise_iff_getElem.mp (labelValue_pairwise h)
  obtain ⟨hi, rfl⟩ := List.getElem?_eq_some_iff.mp hm
  obtain ⟨hk, rfl⟩ := List.getElem?_eq_some_iff.mp hm'
  rcases Nat.lt_trichotomy i k with hlt | rfl | hgt
  · exact absurd hlabel (pairwise i k hi hk hlt)
  · exact ⟨rfl, rfl⟩
  · exact absurd hlabel.symm (pairwise k i hk hi hgt)

/-- What is found by a name has the name, at the place where it is found. -/
theorem method?_some {name : String} {i : Nat} {m : Method} (h : c.method? name = some (i, m)) :
    c.methods[i]? = some m ∧ m.name = name := by
  obtain ⟨index, hindex, h⟩ := Option.bind_eq_some_iff.mp h
  obtain ⟨method, hmethod, h⟩ := Option.bind_eq_some_iff.mp h
  obtain ⟨rfl, rfl⟩ := Prod.mk.inj (Option.some.inj h)
  obtain ⟨hlt, hname, -⟩ := List.findIdx?_eq_some_iff_getElem.mp hindex
  obtain ⟨_, rfl⟩ := List.getElem?_eq_some_iff.mp hmethod
  exact ⟨hmethod, by simpa using hname⟩

/-- The name of a method is found somewhere. -/
theorem exists_method? {i : Nat} {m : Method} (hm : c.methods[i]? = some m) :
    ∃ k m', c.method? m.name = some (k, m') := by
  have hfound : (c.methods.findIdx? (·.name == m.name)).isSome := by
    rw [List.findIdx?_isSome, List.any_eq_true]
    exact ⟨m, List.mem_of_getElem? hm, by simp⟩
  obtain ⟨k, hk⟩ := Option.isSome_iff_exists.mp hfound
  obtain ⟨hlt, -⟩ := List.findIdx?_eq_some_iff_getElem.mp hk
  exact ⟨k, c.methods[k], by simp [method?, hk, List.getElem?_eq_getElem hlt]⟩

/-- Where the names of methods differ, a method is found by its name at its place. -/
theorem method?_of_nodup (distinct : (c.methods.map Method.name).Nodup) {i : Nat} {m : Method}
    (hm : c.methods[i]? = some m) : c.method? m.name = some (i, m) := by
  obtain ⟨k, m', hfound⟩ := exists_method? hm
  obtain ⟨hm', hname⟩ := method?_some hfound
  have pairwise := List.pairwise_iff_getElem.mp (List.pairwise_map.mp distinct)
  obtain ⟨hk, rfl⟩ := List.getElem?_eq_some_iff.mp hm'
  obtain ⟨hi, rfl⟩ := List.getElem?_eq_some_iff.mp hm
  rcases Nat.lt_trichotomy k i with hlt | rfl | hgt
  · exact absurd hname (pairwise k i hk hi hlt)
  · exact hfound
  · exact absurd hname.symm (pairwise i k hi hk hgt)

/-- **A method is found by its name at its place.** -/
theorem method?_eq (h : c.fault? = none) {i : Nat} {m : Method} (hm : c.methods[i]? = some m) :
    c.method? m.name = some (i, m) :=
  method?_of_nodup (List.pairwise_map.mpr
    ((labelValue_pairwise h).imp fun differ hname => differ (congrArg labelValue hname))) hm

end Config

/-! ### The next step -/

/-- Jobs in this state have not fenced the node, or not so that it ends the request. -/
def JobState.passes (state : JobState) (m : Method) : Prop :=
  state = .failed ∨ state = .missing ∨ state = .succeeded ∧ m.stopOnSuccess = false

namespace Config

variable {c : Config} {active : Option String} {state : JobState} {elapsed : Duration}

theorem candidate_dispatch {index k : Nat} {last : Option String} {m : Method}
    (h : c.candidate index elapsed last = .dispatch k m) :
    k = index ∧ c.methods[index]? = some m := by
  unfold candidate at h
  split at h
  · cases h
  · next method hmethod =>
      split at h
      · cases h
      · obtain ⟨rfl, rfl⟩ := Decision.dispatch.inj h
        exact ⟨rfl, hmethod⟩

theorem candidate_ne_complete {index : Nat} {last : Option String} {name : String} :
    c.candidate index elapsed last ≠ .complete name := by
  unfold candidate
  split
  · exact nofun
  · split <;> exact nofun

theorem candidate_exhausted {index : Nat} {last last' : Option String}
    (h : c.candidate index elapsed last = .exhausted last') : c.methods.length ≤ index := by
  unfold candidate at h
  split at h
  · next hnone => exact List.getElem?_eq_none_iff.mp hnone
  · split at h <;> cases h

theorem candidate_delay {index k : Nat} {last : Option String} {remaining : Duration}
    (h : c.candidate index elapsed last = .delay k remaining) :
    ∃ m, c.methods[k]? = some m ∧ elapsed < m.gate ∧ remaining = m.gate - elapsed := by
  unfold candidate at h
  split at h
  · cases h
  · next method hmethod =>
      split at h
      · next hearly =>
          obtain ⟨rfl, rfl⟩ := Decision.delay.inj h
          exact ⟨method, hmethod, hearly, rfl⟩
      · cases h

/-- What is delayed is dispatched as soon as the request has counted for long enough. -/
theorem candidate_of_delay {index k : Nat} {last : Option String} {remaining : Duration}
    (h : c.candidate index elapsed last = .delay k remaining) :
    ∃ m, c.methods[k]? = some m ∧ ∀ e, c.candidate index e last =
      if e < m.gate then .delay k (m.gate - e) else .dispatch k m := by
  unfold candidate at h
  split at h
  · cases h
  · next method hmethod =>
      split at h
      · obtain ⟨rfl, -⟩ := Decision.delay.inj h
        refine ⟨method, hmethod, fun e => ?_⟩
        unfold candidate
        rw [hmethod]
      · cases h

theorem candidate_gate {index k : Nat} {last : Option String} {m : Method}
    (h : c.candidate index elapsed last = .dispatch k m) : ¬ elapsed < m.gate := by
  unfold candidate at h
  split at h
  · cases h
  · split at h
    · cases h
    · next hlate =>
        obtain ⟨-, rfl⟩ := Decision.dispatch.inj h
        exact hlate

/-- A method is dispatched when the request has counted for long enough. -/
theorem candidate_of_late {index : Nat} {last : Option String} {m : Method}
    (hm : c.methods[index]? = some m) (late : ¬ elapsed < m.gate) :
    c.candidate index elapsed last = .dispatch index m := by
  simp [candidate, hm, late]

/-- Behind the last method there is none. -/
theorem candidate_of_length_le {index : Nat} {last : Option String}
    (h : c.methods.length ≤ index) : c.candidate index elapsed last = .exhausted last := by
  simp [candidate, List.getElem?_eq_none h]

/-- The next step goes behind the method in use if its jobs let it pass; the success of the last
method does not. -/
theorem nextStep_of_passes {i : Nat} {m : Method} (found : active.bind c.method? = some (i, m))
    (passes : state.passes m) (notLast : state = .succeeded → i + 1 < c.methods.length) :
    c.nextStep active state elapsed = c.candidate (i + 1) elapsed active := by
  unfold nextStep
  rw [found]
  rcases passes with rfl | rfl | ⟨rfl, goesOn⟩
  · rfl
  · rfl
  · refine if_neg ?_
    simp [goesOn, notLast rfl]

/-- **A method is put in use** as the first of all if none is in use, and else behind the one in
use, whose jobs let it pass. -/
theorem nextStep_dispatch {index : Nat} {m : Method}
    (h : c.nextStep active state elapsed = .dispatch index m) :
    c.methods[index]? = some m ∧ (active.bind c.method? = none ∧ index = 0 ∨
      ∃ i m₀, active.bind c.method? = some (i, m₀) ∧ index = i + 1 ∧ state.passes m₀) := by
  unfold nextStep at h
  split at h
  · next hnone =>
      obtain ⟨rfl, hm⟩ := candidate_dispatch h
      exact ⟨hm, .inl ⟨hnone, rfl⟩⟩
  · next i m₀ hsome =>
      cases state with
      | running => cases h
      | succeeded =>
          dsimp only at h
          split at h
          · cases h
          · next hgo =>
              obtain ⟨rfl, hm⟩ := candidate_dispatch h
              simp only [Bool.or_eq_true, not_or, Bool.not_eq_true] at hgo
              exact ⟨hm, .inr ⟨i, m₀, hsome, rfl, .inr (.inr ⟨rfl, hgo.1⟩)⟩⟩
      | failed =>
          obtain ⟨rfl, hm⟩ := candidate_dispatch h
          exact ⟨hm, .inr ⟨i, m₀, hsome, rfl, .inl rfl⟩⟩
      | missing =>
          obtain ⟨rfl, hm⟩ := candidate_dispatch h
          exact ⟨hm, .inr ⟨i, m₀, hsome, rfl, .inr (.inl rfl)⟩⟩

/-- **A method is delayed** as long as the request has not counted for the time that it demands. -/
theorem nextStep_delay {index : Nat} {remaining : Duration}
    (h : c.nextStep active state elapsed = .delay index remaining) :
    ∃ m, c.methods[index]? = some m ∧ elapsed < m.gate ∧ remaining = m.gate - elapsed := by
  unfold nextStep at h
  split at h
  · exact candidate_delay h
  · cases state with
    | running => cases h
    | succeeded =>
        dsimp only at h
        split at h
        · cases h
        · exact candidate_delay h
    | failed => exact candidate_delay h
    | missing => exact candidate_delay h

/-- Where a method is delayed, it depends on the time alone how long it still is. -/
theorem nextStep_of_delay {index : Nat} {remaining : Duration}
    (h : c.nextStep active state elapsed = .delay index remaining) :
    ∃ m, c.methods[index]? = some m ∧ ∀ e, c.nextStep active state e =
      if e < m.gate then .delay index (m.gate - e) else .dispatch index m := by
  unfold nextStep at h ⊢
  split at h
  · exact candidate_of_delay h
  · cases state with
    | running => cases h
    | succeeded =>
        dsimp only at h ⊢
        split at h
        · cases h
        · next hgo =>
            simp only [if_neg hgo]
            exact candidate_of_delay h
    | failed => exact candidate_of_delay h
    | missing => exact candidate_of_delay h

/-- A method is put in use only when the request has counted for the time that it demands. -/
theorem nextStep_gate {index : Nat} {m : Method}
    (h : c.nextStep active state elapsed = .dispatch index m) : ¬ elapsed < m.gate := by
  unfold nextStep at h
  split at h
  · exact candidate_gate h
  · cases state with
    | running => cases h
    | succeeded =>
        dsimp only at h
        split at h
        · cases h
        · exact candidate_gate h
    | failed => exact candidate_gate h
    | missing => exact candidate_gate h

/-- **A request has succeeded** only if the jobs of the method in use have. -/
theorem nextStep_complete {name : String} (h : c.nextStep active state elapsed = .complete name) :
    active = some name ∧ state = .succeeded := by
  unfold nextStep at h
  split at h
  · exact absurd h candidate_ne_complete
  · next i m₀ hsome =>
      obtain ⟨a, rfl, hmethod⟩ := Option.bind_eq_some_iff.mp hsome
      cases state with
      | running => cases h
      | succeeded =>
          dsimp only at h
          split at h
          · have hname : m₀.name = name := by simpa using h
            exact ⟨by rw [← hname, (method?_some hmethod).2], rfl⟩
          · exact absurd h candidate_ne_complete
      | failed => exact absurd h candidate_ne_complete
      | missing => exact absurd h candidate_ne_complete

/-- **There is no method left** behind the one in use, which is the last one and has not succeeded,
unless there is none at all. -/
theorem nextStep_exhausted {last : Option String}
    (h : c.nextStep active state elapsed = .exhausted last) :
    active.bind c.method? = none ∧ c.methods = [] ∨
      ∃ i m₀, active.bind c.method? = some (i, m₀) ∧ c.methods.length ≤ i + 1 ∧
        (state = .failed ∨ state = .missing) := by
  unfold nextStep at h
  split at h
  · next hnone =>
      exact .inl ⟨hnone, List.length_eq_zero_iff.mp (Nat.le_zero.mp (candidate_exhausted h))⟩
  · next i m₀ hsome =>
      cases state with
      | running => cases h
      | succeeded =>
          dsimp only at h
          split at h
          · cases h
          · next hgo =>
              -- A method that is not the last one leaves another one to be tried.
              simp only [Bool.or_eq_true, not_or, decide_eq_true_eq] at hgo
              exact absurd (candidate_exhausted h) hgo.2
      | failed => exact .inr ⟨i, m₀, hsome, candidate_exhausted h, .inl rfl⟩
      | missing => exact .inr ⟨i, m₀, hsome, candidate_exhausted h, .inr rfl⟩

end Config

end NodeFencing
