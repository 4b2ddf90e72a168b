import Mathlib.Data.List.Nodup
import NodeFencing.StringMap

/-!
# What maps from strings hold

Each change of a map is told by what is found under each key afterwards, and by the order of
the keys.

## Main statements

* `StringMap.get?_put`, `StringMap.get?_erase`, `StringMap.get?_filter` — what is found afterwards
* `StringMap.keys_put`, `StringMap.keys_filter` — the keys afterwards
* `StringMap.nodup_keys_put`, `StringMap.nodup_keys_erase` — no key comes to stand twice
* `StringMap.get?_eq_some_iff` — what is found is what stands there, if no key stands there twice
* `StringMap.eq_of_get?` — maps with the same keys under which the same is found
-/

namespace NodeFencing.StringMap

variable {α : Type} {m : StringMap α} {key : String} {value : α}

theorem get?_cons {k : String} :
    get? ((k, value) :: m) key = if key = k then some value else m.get? key := by
  by_cases h : key = k
  · subst h
    rw [get?, List.lookup_cons_self, if_pos rfl]
  · have other : (key == k) = false := beq_eq_false_iff_ne.mpr h
    rw [get?, List.lookup_cons, other, if_neg h, get?]

/-- What is set is found, and all else is found as before. -/
theorem get?_put (k : String) :
    (m.put key value).get? k = if k = key then some value else m.get? k := by
  induction m with
  | nil => rw [put, get?_cons]
  | cons head rest ih =>
      obtain ⟨k', v⟩ := head
      unfold put
      split
      · next heq =>
          obtain rfl : k' = key := by simpa using heq
          rw [get?_cons, get?_cons]
          split
          · rfl
          · rfl
      · next hne =>
          rw [get?_cons, get?_cons, ih]
          have different : k' ≠ key := by simpa using hne
          by_cases hk : k = k'
          · rw [if_pos hk, if_pos hk, if_neg (hk ▸ different)]
          · rw [if_neg hk, if_neg hk]

/-- A choice of keys leaves what stands under the chosen ones. -/
theorem get?_filter (chosen : String → Bool) (k : String) :
    get? (m.filter fun entry => chosen entry.1) k = if chosen k then m.get? k else none := by
  induction m with
  | nil => simp [get?]
  | cons head rest ih =>
      obtain ⟨k', v⟩ := head
      rw [get?_cons, List.filter_cons]
      by_cases hk : k = k'
      · subst hk
        by_cases hchosen : chosen k = true
        · simp [hchosen, get?_cons]
        · simp [hchosen, ih]
      · by_cases hchosen : chosen k' = true
        · simp [hchosen, hk, get?_cons, ih]
        · simp [hchosen, hk, ih]

/-- What is removed is not found, and all else is found as before. -/
theorem get?_erase (k : String) :
    (m.erase key).get? k = if k = key then none else m.get? k := by
  unfold erase
  rw [get?_filter (· != key)]
  by_cases h : k = key
  · simp [h]
  · simp [h]

theorem mem_put {entry : String × α} (h : entry ∈ m.put key value) :
    entry = (key, value) ∨ entry ∈ m := by
  induction m with
  | nil => exact .inl (List.mem_singleton.mp h)
  | cons head rest ih =>
      obtain ⟨k, v⟩ := head
      unfold put at h
      split at h
      · rcases List.mem_cons.mp h with h | h
        · exact .inl h
        · exact .inr (List.mem_cons_of_mem _ h)
      · rcases List.mem_cons.mp h with h | h
        · exact .inr (h ▸ List.mem_cons_self)
        · exact (ih h).imp_right (List.mem_cons_of_mem _)

/-- A key that is set keeps its place, or is the last one if it is new. -/
theorem keys_put : (m.put key value).keys = if key ∈ m.keys then m.keys else m.keys ++ [key] := by
  induction m with
  | nil => rfl
  | cons head rest ih =>
      obtain ⟨k, v⟩ := head
      unfold put
      split
      · next heq =>
          obtain rfl : k = key := by simpa using heq
          simp [keys]
      · next hne =>
          have different : key ≠ k := by
            rintro rfl
            simp at hne
          have tail (m : StringMap α) : keys ((k, v) :: m) = k :: m.keys := rfl
          have known : key ∈ k :: keys rest ↔ key ∈ keys rest := by
            rw [List.mem_cons, or_iff_right different]
          rw [tail, tail, ih]
          by_cases hkey : key ∈ keys rest
          · rw [if_pos hkey, if_pos (known.mpr hkey)]
          · rw [if_neg hkey, if_neg (mt known.mp hkey), List.cons_append]

theorem keys_filter (chosen : String → Bool) :
    keys (m.filter fun entry => chosen entry.1) = m.keys.filter chosen := by
  unfold keys
  rw [List.filter_map]
  rfl

/-- No key stands twice afterwards, if none did before. -/
theorem nodup_keys_put (h : m.keys.Nodup) : (m.put key value).keys.Nodup := by
  rw [keys_put]
  split
  · exact h
  · next hkey => exact List.concat_eq_append ▸ h.concat hkey

theorem nodup_keys_erase (h : m.keys.Nodup) : (m.erase key).keys.Nodup := by
  unfold erase
  rw [keys_filter (· != key)]
  exact h.filter _

theorem get?_eq_none_iff : m.get? key = none ↔ key ∉ m.keys := by
  unfold get? keys
  rw [List.lookup_eq_none_iff, List.mem_map, not_exists]
  refine forall_congr' fun entry => ?_
  rw [not_and, bne_iff_ne]
  exact imp_congr_right fun _ => ne_comm

theorem get?_isSome_iff : (m.get? key).isSome ↔ key ∈ m.keys := by
  rw [← not_iff_not, Option.not_isSome_iff_eq_none, get?_eq_none_iff]

theorem mem_of_get? (h : m.get? key = some value) : (key, value) ∈ m := by
  obtain ⟨before, after, rfl, -⟩ := List.lookup_eq_some_iff.mp h
  simp

/-- Where no key stands twice, what is found is what stands there. -/
theorem get?_eq_some_iff (distinct : m.keys.Nodup) :
    m.get? key = some value ↔ (key, value) ∈ m := by
  refine ⟨mem_of_get?, fun h => ?_⟩
  induction m with
  | nil => cases h
  | cons head rest ih =>
      obtain ⟨k, v⟩ := head
      obtain ⟨hk, hrest⟩ := List.nodup_cons.mp distinct
      rw [get?_cons]
      rcases List.mem_cons.mp h with heq | hmem
      · obtain ⟨rfl, rfl⟩ := Prod.mk.inj heq
        rw [if_pos rfl]
      · have different : key ≠ k := by
          rintro rfl
          exact hk (List.mem_map.mpr ⟨_, hmem, rfl⟩)
        rw [if_neg different, ih hrest hmem]

/-- Maps are the same if they have the same keys in the same order and the same is found under
each. -/
theorem eq_of_get? {m' : StringMap α} (same : m.keys = m'.keys) (distinct : m.keys.Nodup)
    (h : ∀ key, m.get? key = m'.get? key) : m = m' := by
  induction m generalizing m' with
  | nil => exact (List.map_eq_nil_iff.mp same.symm).symm
  | cons head rest ih =>
      obtain ⟨k, v⟩ := head
      obtain ⟨⟨k', v'⟩, rest', rfl, hk, hrest⟩ := List.map_eq_cons_iff.mp same.symm
      obtain rfl : k' = k := hk
      have values := h k'
      rw [get?_cons, get?_cons, if_pos rfl, if_pos rfl] at values
      obtain rfl := Option.some.inj values
      obtain ⟨hnew, hdistinct⟩ := List.nodup_cons.mp distinct
      rw [ih hrest.symm hdistinct fun key => ?_]
      have found := h key
      rw [get?_cons, get?_cons] at found
      by_cases hkey : key = k'
      · rw [hkey, get?_eq_none_iff.mpr hnew, get?_eq_none_iff.mpr]
        exact fun hmem => hnew (hrest ▸ hmem)
      · rwa [if_neg hkey, if_neg hkey] at found

end NodeFencing.StringMap
