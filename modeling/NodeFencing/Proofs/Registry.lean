import Mathlib.Data.List.Nodup
import NodeFencing.Proofs.StringMap
import NodeFencing.Registry

/-!
# What the registry holds

Every configuration in the registry is usable and stands under its own name, and no name
occurs twice.  All changes of the registry keep this.  So a configuration that was chosen
once is found again by its name, and is chosen again.

## Main Definitions

* `Registry.Sound` — usable configurations under their own names

## Main statements

* `Registry.get?_insert`, `Registry.get?_remove`, `Registry.get?_resync` — what is found afterwards
* `Registry.Sound.upsert`, `Registry.Sound.remove`, `Registry.Sound.resync` — changes keep it
* `Registry.Sound.get?_name` — a configuration of the registry is found by its name
* `Snapshot.select_cases`, `Snapshot.select_chosen` — where the configuration for a node comes from
-/

namespace NodeFencing

/-! ### The registry -/

/-- What is read from a source is usable. -/
theorem Config.fault?_of_ofYaml {source text : String} {c : Config}
    (h : Config.ofYaml source text = .ok c) : c.fault? = none := by
  unfold Config.ofYaml at h
  split at h
  · cases h
  · dsimp only at h
    split at h
    · cases h
    · next hfault => exact Except.ok.inj h ▸ hfault

/-- What is read from a source has its name. -/
theorem Config.name_of_ofYaml {source text : String} {c : Config}
    (h : Config.ofYaml source text = .ok c) : c.name = source := by
  unfold Config.ofYaml at h
  split at h
  · cases h
  · dsimp only at h
    split at h
    · cases h
    · exact Except.ok.inj h ▸ rfl

/-- Where no name occurs twice, a configuration is found by its name. -/
theorem Snapshot.get?_of_mem {s : Snapshot} (names : (s.map Config.name).Nodup) {c : Config}
    (hc : c ∈ s) : s.get? c.name = some c := by
  cases hfound : s.get? c.name with
  | none =>
      have hnone := List.find?_eq_none.mp hfound c hc
      simp at hnone
  | some c' =>
      have hmem := List.mem_of_find?_eq_some hfound
      have hname : c'.name = c.name := by simpa using List.find?_some hfound
      rw [List.inj_on_of_nodup_map names hmem hc hname]

namespace Registry

section Change

variable {r : Registry} {name : String}

theorem get?_insert (c : Config) :
    (r.insert c).get? name = if name = c.name then some c else r.get? name :=
  StringMap.get?_put name

theorem get?_remove (gone : String) :
    (r.remove gone).get? name = if name = gone then none else r.get? name :=
  StringMap.get?_erase name

theorem get?_resync (names : List String) :
    (r.resync names).get? name = if names.contains name then r.get? name else none :=
  StringMap.get?_filter names.contains name

/-- A configuration that is added stands in the place of the one of its name, or at the end. -/
theorem names_insert (c : Config) :
    (r.insert c).names = if c.name ∈ r.names then r.names else r.names ++ [c.name] :=
  StringMap.keys_put

theorem names_remove (gone : String) : (r.remove gone).names = r.names.filter (· != gone) :=
  StringMap.keys_filter (· != gone)

theorem names_resync (names : List String) :
    (r.resync names).names = r.names.filter names.contains :=
  StringMap.keys_filter names.contains

theorem get?_isSome_iff : (r.get? name).isSome ↔ name ∈ r.names :=
  StringMap.get?_isSome_iff

end Change

/-- Usable configurations, each under its own name. -/
structure Sound (r : Registry) : Prop where
  keyed : ∀ entry ∈ r.entries, entry.1 = entry.2.name
  distinct : r.entries.keys.Nodup
  usable : ∀ entry ∈ r.entries, entry.2.fault? = none

theorem sound_empty : Sound {} where
  keyed := by simp
  distinct := List.nodup_nil
  usable := by simp

namespace Sound

variable {r r' : Registry}

theorem insert (h : r.Sound) {c : Config} (hc : c.fault? = none) : (r.insert c).Sound where
  keyed entry hentry := by
    rcases StringMap.mem_put hentry with rfl | hold
    · rfl
    · exact h.keyed entry hold
  distinct := StringMap.nodup_keys_put h.distinct
  usable entry hentry := by
    rcases StringMap.mem_put hentry with rfl | hold
    · exact hc
    · exact h.usable entry hold

theorem upsert (h : r.Sound) {name text : String} (hr : r.upsert name text = .ok r') :
    r'.Sound := by
  unfold Registry.upsert at hr
  cases hc : Config.ofYaml name text with
  | error e => simp [hc, Except.map] at hr
  | ok c =>
      obtain rfl : r.insert c = r' := by simpa [hc, Except.map] using hr
      exact h.insert (Config.fault?_of_ofYaml hc)

/-- Fewer configurations are as sound. -/
theorem sublist (h : r.Sound) (hr : r'.entries.Sublist r.entries) : r'.Sound where
  keyed entry hentry := h.keyed entry (hr.subset hentry)
  distinct := h.distinct.sublist (hr.map _)
  usable entry hentry := h.usable entry (hr.subset hentry)

theorem remove (h : r.Sound) (name : String) : (r.remove name).Sound :=
  h.sublist List.filter_sublist

theorem resync (h : r.Sound) (names : List String) : (r.resync names).Sound :=
  h.sublist List.filter_sublist

/-- A configuration of the registry is usable. -/
theorem fault? (h : r.Sound) {c : Config} (hc : c ∈ r.snapshot) : c.fault? = none := by
  obtain ⟨entry, hentry, rfl⟩ := List.mem_map.mp hc
  exact h.usable entry hentry

/-- The names of the configurations are the keys under which they stand. -/
theorem map_name_snapshot (h : r.Sound) : r.snapshot.map Config.name = r.entries.keys := by
  unfold snapshot
  rw [List.map_map]
  exact List.map_congr_left fun entry hentry => (h.keyed entry hentry).symm

/-- **A configuration of the registry is found by its name.** -/
theorem get?_name (h : r.Sound) {c : Config} (hc : c ∈ r.snapshot) :
    r.snapshot.get? c.name = some c :=
  Snapshot.get?_of_mem (h.map_name_snapshot ▸ h.distinct) hc

/-- A snapshot holds what the registry holds, under the same names. -/
theorem get?_snapshot (h : r.Sound) (name : String) : r.snapshot.get? name = r.get? name := by
  ext c
  rw [get?, StringMap.get?_eq_some_iff h.distinct]
  constructor
  · intro hc
    obtain ⟨⟨key, c'⟩, hentry, rfl⟩ := List.mem_map.mp (List.mem_of_find?_eq_some hc)
    have hname : c'.name = name := by simpa using List.find?_some hc
    have hkey : key = c'.name := h.keyed _ hentry
    rwa [← hname, ← hkey]
  · intro hc
    have hkey : name = c.name := h.keyed _ hc
    rw [hkey]
    exact h.get?_name (List.mem_map_of_mem hc)

/-- There is one configuration of each name. -/
theorem eq_of_name (h : r.Sound) {c c' : Config} (hc : c ∈ r.snapshot) (hc' : c' ∈ r.snapshot)
    (hname : c.name = c'.name) : c = c' := by
  have found := h.get?_name hc
  rw [hname, h.get?_name hc'] at found
  exact (Option.some.inj found).symm

end Sound

end Registry

/-! ### Selection -/

namespace Snapshot

variable {s : Snapshot} {c : Config} {target : String} {labels : StringMap String}

theorem mem_of_foldl_better {best : Option Config} (h : s.foldl better best = some c) :
    best = some c ∨ c ∈ s := by
  induction s generalizing best with
  | nil => exact .inl h
  | cons head rest ih =>
      rcases ih h with hbetter | hmem
      · have hcase : better best head = best ∨ better best head = some head := by
          unfold better
          split
          · split
            · exact .inl rfl
            · exact .inr rfl
          · exact .inr rfl
        rcases hcase with hbest | hhead
        · exact .inl (hbest ▸ hbetter)
        · exact .inr (by simp [Option.some.inj (hhead ▸ hbetter)])
      · exact .inr (List.mem_cons_of_mem _ hmem)

/-- **The configuration for a node** is one of those that there are: one of the name that was chosen
before, or one that is for a node with these labels. -/
theorem select_cases {chosen : Option String} (h : s.select chosen target labels = .ok c) :
    c ∈ s ∧ (chosen = some c.name ∨ c.selects labels = true) := by
  unfold select at h
  split at h
  · next config hsome =>
      obtain rfl : config = c := Except.ok.inj h
      rw [Option.orElse_eq_orElse, Option.orElse_eq_or] at hsome
      rcases Option.or_eq_some_iff.mp hsome with hchosen | ⟨-, hbest⟩
      · obtain ⟨name, rfl, hget⟩ := Option.bind_eq_some_iff.mp hchosen
        have hname : config.name = name := by simpa using List.find?_some hget
        exact ⟨List.mem_of_find?_eq_some hget, .inl (by rw [hname])⟩
      · rcases mem_of_foldl_better hbest with hnone | hmem
        · cases hnone
        · exact ⟨List.mem_of_mem_filter hmem, .inr (List.mem_filter.mp hmem).2⟩
  · cases h

/-- The configuration for a node is one of those that there are. -/
theorem mem_of_select {chosen : Option String} (h : s.select chosen target labels = .ok c) :
    c ∈ s :=
  (select_cases h).1

/-- A configuration that was chosen before is chosen as long as it is there. -/
theorem select_chosen {name : String} (h : s.get? name = some c) :
    s.select (some name) target labels = .ok c := by
  simp [select, h]

end Snapshot

end NodeFencing
