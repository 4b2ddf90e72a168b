import Mathlib.Data.List.DropRight
import NodeFencing.Proofs.Registry

/-!
# The registry is its history

What a registry holds is told by the calls that were made to it.  A name stands in it if a
usable configuration has come under this name since the name was last dropped: removed, or
missing when the names were compared with those of the sources.  Under it stands the latest
such configuration, at the place that the first of them got.  What is not usable counts for
nothing.

A snapshot that was handed out tells the history up to the moment when it was taken.  No
later call changes it.

## Main Definitions

* `Registry.Call` — what is asked of a registry
* `Registry.Usage` — a registry with the snapshots that it has handed out
* `Registry.latest?`, `Registry.entrance` — what calls say about a name
* `Snapshot.Recounts` — a snapshot that tells a history

## Main statements

* `Registry.Usage.get?_after` — under each name stands what the calls say
* `Registry.Usage.ordered_after` — the names stand in the order in which they came
* `Registry.Usage.registry_is_history` — a registry, and each snapshot, is its history
-/

namespace NodeFencing

namespace Registry

/-! ### Calls -/

/-- What is asked of a registry. -/
inductive Call where
  | upsert (name text : String)
  | remove (name : String)
  | resync (names : List String)
  /-- To hand out a snapshot. -/
  | snapshot
  deriving Repr, DecidableEq

/-- A registry with the snapshots that it has handed out, in the order in which they were taken. -/
structure Usage where
  registry : Registry := {}
  taken : List Snapshot := []
  deriving Repr, DecidableEq

namespace Usage

/-- Answer a call.  A text that holds no usable configuration is rejected. -/
def step (u : Usage) : Call → Usage
  | .upsert name text =>
    match u.registry.upsert name text with
    | .ok registry => { u with registry }
    | .error _ => u
  | .remove name => { u with registry := u.registry.remove name }
  | .resync names => { u with registry := u.registry.resync names }
  | .snapshot => { u with taken := u.taken ++ [u.registry.snapshot] }

/-- An empty registry after calls. -/
def after (calls : List Call) : Usage :=
  calls.foldl step {}

end Usage

/-! ### What calls say about a name -/

namespace Call

/-- Whether a call drops a name. -/
def drops (c : Call) (name : String) : Bool :=
  match c with
  | remove gone => gone == name
  | resync names => !names.contains name
  | upsert .. | snapshot => false

/-- The configuration that a call brings under a name. -/
def brings? (c : Call) (name : String) : Option Config :=
  match c with
  | upsert source text => if source = name then (Config.ofYaml source text).toOption else none
  | remove _ | resync _ | snapshot => none

end Call

/-- The calls since a name was last dropped. -/
def since (name : String) (calls : List Call) : List Call :=
  calls.rtakeWhile fun c => !c.drops name

/-- The latest configuration under a name since this was last dropped. -/
def latest? (name : String) (calls : List Call) : Option Config :=
  ((since name calls).filterMap (·.brings? name)).getLast?

/-- How many calls came before the first one that has brought a configuration under a name since
this was last dropped. -/
def entrance (name : String) (calls : List Call) : Nat :=
  (calls.length - (since name calls).length)
    + (since name calls).findIdx fun c => (c.brings? name).isSome

end Registry

/-- A snapshot that tells a history: it holds the latest configuration of each name, in the order in
which the names came, each once, and all of them are usable. -/
structure Snapshot.Recounts (s : Snapshot) (calls : List Registry.Call) : Prop where
  latest : ∀ name, s.get? name = Registry.latest? name calls
  ordered : (s.map Config.name).Pairwise fun a b =>
    Registry.entrance a calls < Registry.entrance b calls
  distinct : (s.map Config.name).Nodup
  usable : ∀ c ∈ s, c.fault? = none

namespace Registry

section One

variable {name : String} {calls : List Call} {c : Call}

theorem since_concat :
    since name (calls ++ [c]) = if c.drops name then [] else since name calls ++ [c] := by
  unfold since
  rw [List.rtakeWhile_concat]
  cases c.drops name with
  | true => rfl
  | false => rfl

theorem length_since_le : (since name calls).length ≤ calls.length :=
  (List.rtakeWhile_suffix _ _).length_le

/-- A call that brings something drops nothing. -/
theorem Call.drops_eq_false {other : String} (h : (c.brings? name).isSome) :
    c.drops other = false := by
  cases c with
  | upsert => rfl
  | snapshot => rfl
  | remove => cases h
  | resync => cases h

/-- **One call more**: it drops the name, or brings a configuration, or leaves what there was. -/
theorem latest?_concat :
    latest? name (calls ++ [c]) =
      if c.drops name then none else (c.brings? name).or (latest? name calls) := by
  unfold latest?
  rw [since_concat]
  split
  · rfl
  · rw [List.filterMap_append, List.getLast?_append]
    cases h : c.brings? name with
    | none => simp [h]
    | some config => simp [h]

theorem latest?_isSome_iff :
    (latest? name calls).isSome ↔ ∃ c ∈ since name calls, (c.brings? name).isSome := by
  unfold latest?
  rw [List.getLast?_isSome, Ne, List.filterMap_eq_nil_iff]
  push Not
  simp [Option.isSome_iff_ne_none]

/-- A configuration that stands under a name came first with one of the calls since. -/
theorem findIdx_since_lt (h : (latest? name calls).isSome) :
    (since name calls).findIdx (fun c => (c.brings? name).isSome) < (since name calls).length := by
  obtain ⟨c, hc, hbrings⟩ := latest?_isSome_iff.mp h
  exact List.findIdx_lt_length.mpr ⟨c, hc, hbrings⟩

theorem findIdx_since_eq (h : latest? name calls = none) :
    (since name calls).findIdx (fun c => (c.brings? name).isSome) = (since name calls).length := by
  refine List.findIdx_eq_length.mpr fun c hc => ?_
  by_contra hbrings
  have found : (latest? name calls).isSome :=
    latest?_isSome_iff.mpr ⟨c, hc, Bool.of_not_eq_false hbrings⟩
  rw [h] at found
  cases found

theorem entrance_lt (h : (latest? name calls).isSome) : entrance name calls < calls.length := by
  have first := findIdx_since_lt h
  have le : (since name calls).length ≤ calls.length := length_since_le
  unfold entrance
  omega

/-- A name that is not dropped keeps its place. -/
theorem entrance_concat (hkept : c.drops name = false) (h : (latest? name calls).isSome) :
    entrance name (calls ++ [c]) = entrance name calls := by
  have first := findIdx_since_lt h
  have le : (since name calls).length ≤ calls.length := length_since_le
  unfold entrance
  rw [since_concat, hkept, if_neg Bool.false_ne_true, List.findIdx_append, if_pos first,
    List.length_append, List.length_append]
  omega

/-- A name that is new comes behind all calls so far. -/
theorem entrance_concat_new (hnew : latest? name calls = none) (h : (c.brings? name).isSome) :
    entrance name (calls ++ [c]) = calls.length := by
  have le : (since name calls).length ≤ calls.length := length_since_le
  have here : [c].findIdx (fun c => (c.brings? name).isSome) = 0 := by simp [h]
  unfold entrance
  rw [since_concat, Call.drops_eq_false h, if_neg Bool.false_ne_true, List.findIdx_append,
    findIdx_since_eq hnew, if_neg (Nat.lt_irrefl _), here, List.length_append, List.length_append]
  omega

end One

namespace Usage

/-! ### One call -/

section Step

variable {u : Usage} {name : String} {c : Call}

theorem step_upsert_ok {source text : String} {config : Config}
    (h : Config.ofYaml source text = .ok config) :
    u.step (.upsert source text) = { u with registry := u.registry.insert config } := by
  simp [step, Registry.upsert, h, Except.map]

theorem step_upsert_error {source text : String} {e : FencingError}
    (h : Config.ofYaml source text = .error e) : u.step (.upsert source text) = u := by
  simp [step, Registry.upsert, h, Except.map]

/-- What stands under a name after a call. -/
theorem get?_step :
    (u.step c).registry.get? name =
      if c.drops name then none else (c.brings? name).or (u.registry.get? name) := by
  cases c with
  | upsert source text =>
      cases h : Config.ofYaml source text with
      | error e =>
          rw [step_upsert_error h]
          simp [Call.drops, Call.brings?, h, Except.toOption]
      | ok config =>
          rw [step_upsert_ok h, get?_insert, Config.name_of_ofYaml h]
          by_cases hname : name = source
          · simp [Call.drops, Call.brings?, h, hname, Except.toOption]
          · simp [Call.drops, Call.brings?, hname, Ne.symm hname]
  | remove gone =>
      rw [step, get?_remove]
      by_cases hname : name = gone
      · simp [Call.drops, hname]
      · simp [Call.drops, Call.brings?, hname, Ne.symm hname]
  | resync names =>
      rw [step, get?_resync]
      cases hname : names.contains name with
      | true => rw [Call.drops, hname]; rfl
      | false => rw [Call.drops, hname]; rfl
  | snapshot => rfl

/-- The names after a call: those that are not dropped, or all with a new one behind them. -/
theorem names_step :
    (u.step c).registry.names = u.registry.names.filter (fun name => !c.drops name) ∨
      ∃ name, name ∉ u.registry.names ∧ (c.brings? name).isSome ∧
        (u.step c).registry.names = u.registry.names ++ [name] := by
  have all : u.registry.names.filter (fun _ => true) = u.registry.names := List.filter_true _
  cases c with
  | upsert source text =>
      cases h : Config.ofYaml source text with
      | error e =>
          rw [step_upsert_error h]
          exact .inl all.symm
      | ok config =>
          rw [step_upsert_ok h, names_insert, Config.name_of_ofYaml h]
          by_cases hknown : source ∈ u.registry.names
          · rw [if_pos hknown]
            exact .inl all.symm
          · rw [if_neg hknown]
            refine .inr ⟨source, hknown, ?_, rfl⟩
            simp [Call.brings?, h, Except.toOption]
  | remove gone =>
      left
      rw [step, names_remove]
      refine List.filter_congr fun name _ => ?_
      rw [Call.drops, bne, BEq.comm]
  | resync names =>
      left
      rw [step, names_resync]
      refine List.filter_congr fun name _ => ?_
      rw [Call.drops, Bool.not_not]
  | snapshot => exact .inl all.symm

theorem sound_step (h : u.registry.Sound) : (u.step c).registry.Sound := by
  cases c with
  | upsert source text =>
      cases hconfig : Config.ofYaml source text with
      | error e =>
          rw [step_upsert_error hconfig]
          exact h
      | ok config =>
          rw [step_upsert_ok hconfig]
          exact h.insert (Config.fault?_of_ofYaml hconfig)
  | remove gone => exact h.remove gone
  | resync names => exact h.resync names
  | snapshot => exact h

/-- Only the call for a snapshot hands one out. -/
theorem taken_step :
    (u.step c).taken = if c = .snapshot then u.taken ++ [u.registry.snapshot] else u.taken := by
  cases c with
  | upsert source text =>
      rw [if_neg (by simp)]
      cases h : Config.ofYaml source text with
      | error e => rw [step_upsert_error h]
      | ok config => rw [step_upsert_ok h]
  | remove => rfl
  | resync => rfl
  | snapshot => rfl

end Step

/-! ### All calls -/

variable (calls : List Call)

theorem after_concat (c : Call) : after (calls ++ [c]) = (after calls).step c :=
  List.foldl_concat ..

theorem sound_after : (after calls).registry.Sound := by
  induction calls using List.reverseRecOn with
  | nil => exact sound_empty
  | append_singleton calls c ih =>
      rw [after_concat]
      exact sound_step ih

/-- **Under each name stands what the calls say.** -/
theorem get?_after (name : String) :
    (after calls).registry.get? name = latest? name calls := by
  induction calls using List.reverseRecOn with
  | nil => rfl
  | append_singleton calls c ih => rw [after_concat, get?_step, latest?_concat, ih]

/-- **The names stand in the order in which they came.** -/
theorem ordered_after :
    (after calls).registry.names.Pairwise fun a b => entrance a calls < entrance b calls := by
  induction calls using List.reverseRecOn with
  | nil => exact .nil
  | append_singleton calls c ih =>
      have known {name : String} (h : name ∈ (after calls).registry.names) :
          (latest? name calls).isSome := by
        rw [← get?_after]
        exact get?_isSome_iff.mpr h
      rw [after_concat]
      obtain hnames | ⟨name, hname, hbrings, hnames⟩ := names_step (u := after calls) (c := c)
      · rw [hnames]
        refine (ih.filter _).imp_of_mem fun {a b} ha hb hlt => ?_
        obtain ⟨ha, hakept⟩ := List.mem_filter.mp ha
        obtain ⟨hb, hbkept⟩ := List.mem_filter.mp hb
        rw [entrance_concat (by simpa using hakept) (known ha),
          entrance_concat (by simpa using hbkept) (known hb)]
        exact hlt
      · have kept {a : String} (ha : a ∈ (after calls).registry.names) :
            entrance a (calls ++ [c]) = entrance a calls :=
          entrance_concat (Call.drops_eq_false hbrings) (known ha)
        have new : latest? name calls = none := by
          rw [← get?_after, ← Option.not_isSome_iff_eq_none]
          exact mt get?_isSome_iff.mp hname
        rw [hnames, List.pairwise_append]
        refine ⟨ih.imp_of_mem fun {a b} ha hb hlt => ?_, List.pairwise_singleton _ _, ?_⟩
        · rw [kept ha, kept hb]
          exact hlt
        · intro a ha b hb
          rw [List.mem_singleton.mp hb, kept ha, entrance_concat_new new hbrings]
          exact entrance_lt (known ha)

/-- What the registry hands out tells its history. -/
theorem recounts_after : (after calls).registry.snapshot.Recounts calls where
  latest name := by rw [(sound_after calls).get?_snapshot, get?_after]
  ordered := by
    rw [(sound_after calls).map_name_snapshot]
    exact ordered_after calls
  distinct := by
    rw [(sound_after calls).map_name_snapshot]
    exact (sound_after calls).distinct
  usable _ hc := (sound_after calls).fault? hc

/-! ### Snapshots -/

/-- What was handed out stays as it is. -/
theorem taken_foldl (u : Usage) : u.taken <+: (calls.foldl step u).taken := by
  induction calls generalizing u with
  | nil => exact List.prefix_rfl
  | cons c rest ih =>
      have once : u.taken <+: (u.step c).taken := by
        rw [taken_step]
        split
        · exact List.prefix_append _ _
        · exact List.prefix_rfl
      exact once.trans (ih (u.step c))

/-- There are as many snapshots as were asked for. -/
theorem length_taken_after : (after calls).taken.length = calls.count .snapshot := by
  induction calls using List.reverseRecOn with
  | nil => rfl
  | append_singleton calls c ih =>
      rw [after_concat, taken_step, List.count_append, ← ih, List.count_singleton]
      by_cases h : c = .snapshot
      · simp [h]
      · simp [h]

/-- **What a snapshot holds is settled when it is taken.** -/
theorem taken_after (later : List Call) :
    (after (calls ++ .snapshot :: later)).taken[calls.count .snapshot]? =
      some (after calls).registry.snapshot := by
  have whole : after (calls ++ .snapshot :: later) =
      later.foldl step ((after calls).step .snapshot) := by
    rw [after, List.foldl_append, List.foldl_cons, after]
  obtain ⟨more, hmore⟩ := taken_foldl later ((after calls).step .snapshot)
  rw [whole, ← hmore, ← length_taken_after, step, List.append_assoc]
  simp

/-- **The registry is its history.**  After any calls that began with an empty registry, what it
hands out tells these calls: each name stands in it once, at the place of the first usable text that
came for it since it was last dropped, with the configuration that the latest one has brought.  A
configuration is found in the registry as in what it hands out; each is usable and stands under its
own name; and a call with a text that is not usable is refused and changes nothing.  Each snapshot
that was handed out still tells the calls up to then. -/
theorem registry_is_history :
    (after calls).registry.snapshot.Recounts calls ∧
      (∀ name, (after calls).registry.get? name = (after calls).registry.snapshot.get? name) ∧
      (∀ entry ∈ (after calls).registry.entries,
        entry.1 = entry.2.name ∧ entry.2.fault? = none) ∧
      (∀ name text e, Config.ofYaml name text = .error e →
        (after calls).registry.upsert name text = .error e ∧
          after (calls ++ [.upsert name text]) = after calls) ∧
      ∀ before later, calls = before ++ .snapshot :: later →
        ∃ s, (after calls).taken[before.count .snapshot]? = some s ∧ s.Recounts before := by
  have sound := sound_after calls
  refine ⟨recounts_after calls, fun name => (sound.get?_snapshot name).symm,
    fun entry hentry => ⟨sound.keyed entry hentry, sound.usable entry hentry⟩, ?_, ?_⟩
  · intro name text e h
    refine ⟨by simp [Registry.upsert, h, Except.map], ?_⟩
    rw [after_concat, step_upsert_error h]
  · rintro before later rfl
    exact ⟨_, taken_after before later, recounts_after before⟩

/-- The text of a configuration with one method. -/
def sourceOf (method : String) : String :=
  "methods:\n- name: " ++ method ++ "\n  mechanisms:\n  - driver: echo\n"

/-- Calls that remove a configuration, and then bring it again. -/
def returning : List Call :=
  [.upsert "racks" (sourceOf "power"), .upsert "blades" (sourceOf "power"), .snapshot,
    .remove "racks", .upsert "racks" (sourceOf "storage")]

/-- A configuration that was removed comes back behind the others; a snapshot from before shows it
at its old place.  A text that breaks off is refused then. -/
theorem registry_is_history_returning :
    (after returning).registry.snapshot.map Config.name = ["blades", "racks"] ∧
      (after returning).registry.snapshot.Recounts returning ∧
      Config.ofYaml "racks" "methods: [" = .error (.unreadable "racks" .malformed) ∧
      after (returning ++ [.upsert "racks" "methods: ["]) = after returning ∧
      ∃ s, (after returning).taken[0]? = some s ∧ s.map Config.name = ["racks", "blades"] ∧
        s.Recounts (returning.take 2) := by
  have refused : Config.ofYaml "racks" "methods: [" = .error (.unreadable "racks" .malformed) := by
    decide +kernel
  obtain ⟨recounts, -, -, rejects, snapshots⟩ := registry_is_history returning
  obtain ⟨s, taken, early⟩ := snapshots (returning.take 2) (returning.drop 3) rfl
  have first : (after returning).taken[0]?.map (·.map Config.name) = some ["racks", "blades"] := by
    decide +kernel
  refine ⟨by decide +kernel, recounts, refused, (rejects _ _ _ refused).2, s, taken, ?_, early⟩
  have taken' : (after returning).taken[0]? = some s := taken
  rw [taken', Option.map_some] at first
  exact Option.some.inj first

end Usage

end Registry

end NodeFencing
