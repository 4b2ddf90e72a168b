import Mathlib.Data.List.Induction
import NodeFencing.Registry

/-!
# The configuration for a node

The configurations are gone through once, and the best one so far is kept.  What comes out is
told here without this way: it is the first of those that ask for the most labels among all
that suit the node.  So neither the order of configurations that do not suit the node matters,
nor that of those behind a better one; among equals the first one counts.

A configuration that was chosen before is preferred to all of them as long as it is there,
whether it suits the node or not.

## Main Definitions

* `Config.Suits` — a node has the labels that a configuration asks for
* `Snapshot.FirstNamed`, `Snapshot.FirstBest` — the first configuration of a name, and the first
  of the best ones
* `Snapshot.Lacks` — no configuration was chosen before, or it is not there any more

## Main statements

* `Snapshot.best?_concat` — the best one once another configuration comes behind the others
* `Snapshot.best?_eq_some_iff` — the first of the best ones is found
* `Snapshot.selects_first_best` — which configuration is chosen, and when there is none
-/

namespace NodeFencing

/-- A node with these labels has every label that a configuration asks for, with its value. -/
def Config.Suits (c : Config) (labels : StringMap String) : Prop :=
  ∀ key value, (key, value) ∈ c.nodeSelector → labels.get? key = some value

theorem Config.selects_iff {c : Config} {labels : StringMap String} :
    c.selects labels = true ↔ c.Suits labels := by
  unfold selects Suits
  rw [List.all_eq_true, Prod.forall]
  simp only [beq_iff_eq]

namespace Snapshot

variable {s : Snapshot} {labels : StringMap String} {name : String} {c c' d : Config}

/-! ### What is looked for -/

/-- The first configuration of a name. -/
def FirstNamed (s : Snapshot) (name : String) (c : Config) : Prop :=
  c.name = name ∧ ∃ before after, s = before ++ c :: after ∧ ∀ d ∈ before, d.name ≠ name

/-- The first of the configurations for a node that ask for the most labels: those before it ask for
fewer, and those behind it for no more. -/
structure FirstBest (s : Snapshot) (labels : StringMap String) (c : Config) : Prop where
  suits : c.Suits labels
  first : ∃ before after, s = before ++ c :: after ∧
    (∀ d ∈ before, d.Suits labels → d.nodeSelector.length < c.nodeSelector.length) ∧
    ∀ d ∈ after, d.Suits labels → d.nodeSelector.length ≤ c.nodeSelector.length

/-- No configuration was chosen before, or it is not there any more. -/
def Lacks (s : Snapshot) (chosen : Option String) : Prop :=
  ∀ name, chosen = some name → ∀ c ∈ s, c.name ≠ name

theorem get?_eq_some_iff : s.get? name = some c ↔ s.FirstNamed name c := by
  unfold get? FirstNamed
  rw [List.find?_eq_some_iff_append]
  simp

theorem get?_eq_none_iff : s.get? name = none ↔ ∀ c ∈ s, c.name ≠ name := by
  unfold get?
  rw [List.find?_eq_none]
  simp

/-- Nothing is found under the name that was chosen before. -/
theorem lacks_iff {chosen : Option String} : s.Lacks chosen ↔ chosen.bind s.get? = none := by
  unfold Lacks
  rw [Option.bind_eq_none_iff]
  exact forall₂_congr fun _ _ => get?_eq_none_iff.symm

/-! ### The first of the best -/

namespace FirstBest

theorem mem (h : s.FirstBest labels c) : c ∈ s := by
  obtain ⟨before, after, rfl, -, -⟩ := h.first
  exact List.mem_append_right _ List.mem_cons_self

/-- No configuration for the node asks for more labels. -/
theorem maximal (h : s.FirstBest labels c) (hd : d ∈ s) (suits : d.Suits labels) :
    d.nodeSelector.length ≤ c.nodeSelector.length := by
  obtain ⟨before, after, rfl, fewer, noMore⟩ := h.first
  rcases List.mem_append.mp hd with hbefore | hrest
  · exact Nat.le_of_lt (fewer d hbefore suits)
  · rcases List.mem_cons.mp hrest with rfl | hafter
    · exact Nat.le_refl _
    · exact noMore d hafter suits

/-- It remains the first of the best when one comes behind that is not better. -/
theorem concat (h : s.FirstBest labels c)
    (noMore : d.Suits labels → d.nodeSelector.length ≤ c.nodeSelector.length) :
    FirstBest (s ++ [d]) labels c := by
  obtain ⟨before, after, rfl, fewer, hafter⟩ := h.first
  refine ⟨h.suits, before, after ++ [d], ?_, fewer, fun d' hd' suits => ?_⟩
  · rw [List.append_assoc, List.cons_append]
  · rcases List.mem_append.mp hd' with hold | hnew
    · exact hafter d' hold suits
    · obtain rfl := List.mem_singleton.mp hnew
      exact noMore suits

/-- One that is better than all before it is the first of the best. -/
theorem last (suits : d.Suits labels)
    (fewer : ∀ d' ∈ s, d'.Suits labels → d'.nodeSelector.length < d.nodeSelector.length) :
    FirstBest (s ++ [d]) labels d :=
  ⟨suits, s, [], rfl, fewer, nofun⟩

/-- There is only one first of the best. -/
theorem unique (h : s.FirstBest labels c) (h' : s.FirstBest labels c') : c = c' := by
  obtain ⟨before, after, hs, fewer, -⟩ := h.first
  obtain ⟨before', after', hs', fewer', -⟩ := h'.first
  -- The one that stands first would ask for fewer labels than the other, which asks for no more.
  have notBefore : c ∉ before' := fun hc =>
    absurd (h.maximal h'.mem h'.suits) (Nat.not_le_of_lt (fewer' c hc h.suits))
  have notBefore' : c' ∉ before := fun hc =>
    absurd (h'.maximal h.mem h.suits) (Nat.not_le_of_lt (fewer c' hc h'.suits))
  rcases List.append_eq_append_iff.mp (hs.symm.trans hs') with
    ⟨more, rfl, hrest⟩ | ⟨more, rfl, hrest⟩
  · cases more with
    | nil => exact (List.cons.inj hrest).1
    | cons e _ =>
        obtain rfl := (List.cons.inj hrest).1
        exact absurd (List.mem_append_right _ List.mem_cons_self) notBefore
  · cases more with
    | nil => exact (List.cons.inj hrest).1.symm
    | cons e _ =>
        obtain rfl := (List.cons.inj hrest).1
        exact absurd (List.mem_append_right _ List.mem_cons_self) notBefore'

end FirstBest

/-! ### The one that is found -/

/-- **One step of the way**: a configuration that comes behind the others is taken for the best one
if it is for the node and asks for more labels. -/
theorem best?_concat (s : Snapshot) (d : Config) (labels : StringMap String) :
    best? (s ++ [d]) labels =
      if d.selects labels then better (s.best? labels) d else s.best? labels := by
  unfold best?
  rw [List.filter_append, List.foldl_append]
  by_cases hd : d.selects labels = true
  · simp [hd]
  · simp [hd]

/-- **The whole way** leads to the first of the best, or there is no configuration for the node. -/
theorem best?_cases (s : Snapshot) (labels : StringMap String) :
    (s.best? labels = none ∧ ∀ c ∈ s, ¬ c.Suits labels) ∨
      ∃ c, s.best? labels = some c ∧ s.FirstBest labels c := by
  induction s using List.reverseRecOn with
  | nil => exact .inl ⟨rfl, nofun⟩
  | append_singleton s d ih =>
      rw [best?_concat]
      by_cases suits : d.Suits labels
      · rw [if_pos (Config.selects_iff.mpr suits)]
        rcases ih with ⟨hnone, hall⟩ | ⟨c, hsome, best⟩
        · rw [hnone]
          exact .inr ⟨d, rfl, .last suits fun d' hd' suits' => absurd suits' (hall d' hd')⟩
        · rw [hsome]
          by_cases noMore : d.specificity ≤ c.specificity
          · exact .inr ⟨c, if_pos noMore, best.concat fun _ => noMore⟩
          · refine .inr ⟨d, if_neg noMore, .last suits fun d' hd' suits' => ?_⟩
            exact Nat.lt_of_le_of_lt (best.maximal hd' suits') (Nat.lt_of_not_le noMore)
      · rw [if_neg (mt Config.selects_iff.mp suits)]
        rcases ih with ⟨hnone, hall⟩ | ⟨c, hsome, best⟩
        · refine .inl ⟨hnone, fun c hc => ?_⟩
          rcases List.mem_append.mp hc with hold | hnew
          · exact hall c hold
          · exact List.mem_singleton.mp hnew ▸ suits
        · exact .inr ⟨c, hsome, best.concat fun hd => absurd hd suits⟩

/-- **The first of the best ones is found.** -/
theorem best?_eq_some_iff : s.best? labels = some c ↔ s.FirstBest labels c := by
  rcases s.best?_cases labels with ⟨hnone, hall⟩ | ⟨c', hsome, best⟩
  · rw [hnone]
    exact ⟨nofun, fun h => absurd h.suits (hall c h.mem)⟩
  · rw [hsome, Option.some.injEq]
    exact ⟨fun h => h ▸ best, best.unique⟩

theorem best?_eq_none_iff : s.best? labels = none ↔ ∀ c ∈ s, ¬ c.Suits labels := by
  rcases s.best?_cases labels with ⟨hnone, hall⟩ | ⟨c, hsome, best⟩
  · exact ⟨fun _ => hall, fun _ => hnone⟩
  · rw [hsome]
    exact ⟨nofun, fun h => absurd best.suits (h c best.mem)⟩

/-- **Which configuration is chosen**, for every order of the configurations and all labels: the
first one of the name that was chosen before, and only where there is none, the first of those that
ask for the most labels among all that suit the node.  There is none for the node exactly where both
are missing. -/
theorem selects_first_best (s : Snapshot) (chosen : Option String) (target : String)
    (labels : StringMap String) :
    (∀ c, s.select chosen target labels = .ok c ↔
      (∃ name, chosen = some name ∧ s.FirstNamed name c) ∨
        s.Lacks chosen ∧ s.FirstBest labels c) ∧
      ∀ e, s.select chosen target labels = .error e ↔
        e = .noConfig target ∧ s.Lacks chosen ∧ ∀ c ∈ s, ¬ c.Suits labels := by
  have found (c : Config) : chosen.bind s.get? = some c ↔
      ∃ name, chosen = some name ∧ s.FirstNamed name c := by
    rw [Option.bind_eq_some_iff]
    exact exists_congr fun name => and_congr_right fun _ => get?_eq_some_iff
  unfold select
  simp only [← found, lacks_iff, ← best?_eq_some_iff, ← best?_eq_none_iff]
  cases chosen.bind s.get? with
  | some config => simp
  | none =>
      cases s.best? labels with
      | some config => simp
      | none => simp [eq_comm]

/-- A configuration for all nodes, and two that ask for one label each. -/
def plainRackZone : Snapshot :=
  [{ name := "plain" }, { name := "rack", nodeSelector := [("rack", "r1")] },
    { name := "zone", nodeSelector := [("zone", "z1")] }]

example : (plainRackZone.select (some "gone") "node-1" [("zone", "z1"), ("rack", "r1")]).map
    Config.name = .ok "rack" := by
  decide

end Snapshot

end NodeFencing
