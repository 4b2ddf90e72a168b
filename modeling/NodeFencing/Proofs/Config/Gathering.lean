import NodeFencing.Config.Decode
import NodeFencing.Proofs.StringMap

/-!
# How maps of strings are gathered

A map of strings is written as a mapping, as a list of mappings, or left out.  Only the
entries count, one behind the other: whatever the form, they are put into the map in their
order, and the first one that is not made of scalars ends it.

What is a scalar is printed, and keys that differ may print alike.  Such a key stands in the
map once, where it comes first, with the value that comes last.  So a single mapping whose
keys print differently is the map that one reads there.

## Main Definitions

* `Yaml.Value.IsScalar`, `Yaml.Value.Lists` — scalars, and the entries of a value in any form
* `Yaml.Prints` — the printed forms of entries
* `StringMap.Gathers` — a map that is put together from pairs

## Main statements

* `StringMap.ofValue_eq_putAll` — the form in which entries are written does not count
* `StringMap.gathers_putAll` — what is put into a map
* `StringMap.nodup_keys_ofValue` — no key stands twice in a map that is read
* `StringMap.ofValue_gathers` — when there is a map, and which one
-/

namespace NodeFencing

namespace Yaml

/-- Null, a truth value, a number or a text. -/
inductive Value.IsScalar : Value → Prop where
  | null : IsScalar .null
  | bool (b : Bool) : IsScalar (.bool b)
  | number (n : Number) : IsScalar (.number n)
  | string (s : String) : IsScalar (.string s)

/-- The entries of a value: none if it is null, those of a mapping, or those of a list of mappings
one behind the other. -/
inductive Value.Lists : Value → List (Value × Value) → Prop where
  | null : Lists .null []
  | mapping (entries : List (Value × Value)) : Lists (.mapping entries) entries
  | sequence (mappings : List (List (Value × Value))) :
      Lists (.sequence (mappings.map .mapping)) mappings.flatten

/-- The printed forms of entries, one by one. -/
def Prints (entries : List (Value × Value)) (pairs : List (String × String)) : Prop :=
  entries.Forall₂ (fun entry pair =>
    entry.1.scalarText? = some pair.1 ∧ entry.2.scalarText? = some pair.2) pairs

theorem Value.isScalar_iff {v : Value} : v.IsScalar ↔ ∃ text, v.scalarText? = some text := by
  constructor
  · rintro (_ | b | n | s)
    · exact ⟨_, rfl⟩
    · exact ⟨_, rfl⟩
    · exact ⟨_, rfl⟩
    · exact ⟨_, rfl⟩
  · rintro ⟨text, h⟩
    cases v with
    | null => exact .null
    | bool b => exact .bool b
    | number n => exact .number n
    | string s => exact .string s
    | sequence items => cases h
    | mapping entries => cases h
    | tagged tag v => cases h

/-- Entries can be printed exactly if they are made of scalars. -/
theorem exists_prints_iff {entries : List (Value × Value)} :
    (∃ pairs, Prints entries pairs) ↔
      ∀ entry ∈ entries, entry.1.IsScalar ∧ entry.2.IsScalar := by
  induction entries with
  | nil => exact ⟨fun _ => nofun, fun _ => ⟨[], .nil⟩⟩
  | cons entry rest ih =>
      rw [List.forall_mem_cons, ← ih, Value.isScalar_iff, Value.isScalar_iff]
      constructor
      · rintro ⟨_, h⟩
        cases h with
        | cons first others => exact ⟨⟨⟨_, first.1⟩, _, first.2⟩, _, others⟩
      · rintro ⟨⟨⟨key, hkey⟩, value, hvalue⟩, pairs, others⟩
        exact ⟨(key, value) :: pairs, .cons ⟨hkey, hvalue⟩ others⟩

end Yaml

open Yaml (Value Prints)

namespace StringMap

variable {α : Type} {m m' : StringMap α} {pairs : List (String × α)}

/-! ### Maps that are put together from pairs -/

/-- A map is put together from pairs: it holds each key once, in the order in which the keys come
first, and with the value that comes last. -/
structure Gathers (m : StringMap α) (pairs : List (String × α)) : Prop where
  distinct : m.keys.Nodup
  keys : m.keys = (keys pairs).eraseDups
  values : ∀ key, m.get? key = get? pairs.reverse key

theorem Gathers.nil : Gathers ([] : StringMap α) [] :=
  ⟨List.nodup_nil, rfl, fun _ => rfl⟩

/-- One more pair is set. -/
theorem Gathers.concat (h : m.Gathers pairs) (key : String) (value : α) :
    (m.put key value).Gathers (pairs ++ [(key, value)]) := by
  constructor
  · exact nodup_keys_put h.distinct
  · have more : StringMap.keys (pairs ++ [(key, value)]) = StringMap.keys pairs ++ [key] :=
      List.map_append
    rw [keys_put, more, List.eraseDups_append, h.keys]
    by_cases hkey : key ∈ StringMap.keys pairs
    · rw [if_pos (List.mem_eraseDups.mpr hkey)]
      simp [List.removeAll, hkey]
    · rw [if_neg (mt List.mem_eraseDups.mp hkey)]
      simp [List.removeAll, List.eraseDups_cons, hkey]
  · intro k
    rw [get?_put, List.reverse_append, List.reverse_singleton, List.singleton_append, get?_cons,
      h.values]

/-- Only one map is put together from the same pairs. -/
theorem Gathers.unique (h : m.Gathers pairs) (h' : m'.Gathers pairs) : m = m' :=
  eq_of_get? (h.keys.trans h'.keys.symm) h.distinct fun key =>
    (h.values key).trans (h'.values key).symm

theorem eraseDups_of_nodup {names : List String} (h : names.Nodup) : names.eraseDups = names := by
  induction names with
  | nil => rfl
  | cons name rest ih =>
      obtain ⟨hname, hrest⟩ := List.nodup_cons.mp h
      have others : rest.filter (fun other => !other == name) = rest := by
        refine List.filter_eq_self.mpr fun other hother => ?_
        have different : other ≠ name := fun heq => hname (heq ▸ hother)
        simpa using different
      rw [List.eraseDups_cons, others, ih hrest]

/-- Where no key comes twice, the pairs are the map. -/
theorem gathers_self (distinct : (keys pairs).Nodup) : Gathers pairs pairs := by
  refine ⟨distinct, (eraseDups_of_nodup distinct).symm, fun key => Option.ext fun value => ?_⟩
  have reversed : (keys pairs.reverse).Nodup := by
    unfold keys
    rw [List.map_reverse]
    exact List.nodup_reverse.mpr distinct
  rw [get?_eq_some_iff distinct, get?_eq_some_iff reversed, List.mem_reverse]

/-! ### Entries one behind the other -/

section Entries

variable {m read : StringMap String} {entries : List (Value × Value)}
  {pairs more : List (String × String)}

theorem putAll_cons (m : StringMap String) {entry : Value × Value} {pair : String × String}
    (h : entry.1.scalarText? = some pair.1 ∧ entry.2.scalarText? = some pair.2)
    (rest : List (Value × Value)) :
    m.putAll (entry :: rest) = (m.put pair.1 pair.2).putAll rest := by
  simp only [putAll, h.1, h.2]

/-- **What is put into a map**: the printed forms of entries, behind what it is put together
from. -/
theorem gathers_putAll (h : m.Gathers pairs) (prints : Prints entries more) :
    ∃ read, m.putAll entries = .ok read ∧ read.Gathers (pairs ++ more) := by
  induction prints generalizing m pairs with
  | nil => exact ⟨m, rfl, by rwa [List.append_nil]⟩
  | @cons entry pair rest others first _ ih =>
      obtain ⟨read, hread, gathers⟩ := ih (h.concat pair.1 pair.2)
      rw [List.append_assoc] at gathers
      exact ⟨read, (putAll_cons m first rest).trans hread, gathers⟩

/-- What is put into a map can be printed. -/
theorem exists_prints_of_putAll (h : m.putAll entries = .ok read) :
    ∃ pairs, Prints entries pairs := by
  induction entries generalizing m with
  | nil => exact ⟨[], .nil⟩
  | cons entry rest ih =>
      unfold putAll at h
      split at h
      · cases h
      · next key hkey =>
          split at h
          · cases h
          · next value hvalue =>
              obtain ⟨pairs, others⟩ := ih h
              exact ⟨(key, value) :: pairs, .cons ⟨hkey, hvalue⟩ others⟩

/-- Entries are put into a map in two parts as in one. -/
theorem putAll_append (m : StringMap String) (front back : List (Value × Value)) :
    m.putAll (front ++ back) = (m.putAll front).bind (·.putAll back) := by
  induction front generalizing m with
  | nil => rfl
  | cons entry rest ih =>
      rw [List.cons_append, putAll, putAll]
      split
      · rfl
      · split
        · rfl
        · exact ih _

/-- Mappings are put into a map as all their entries. -/
theorem putEach_mappings (m : StringMap String) (mappings : List (List (Value × Value))) :
    m.putEach (mappings.map .mapping) = m.putAll mappings.flatten := by
  induction mappings generalizing m with
  | nil => rfl
  | cons entries rest ih =>
      rw [List.map_cons, putEach, List.flatten_cons, putAll_append]
      exact congrArg (m.putAll entries).bind (funext fun m' => ih m')

/-- Only mappings are put into a map. -/
theorem exists_mappings_of_putEach {items : List Value} (h : m.putEach items = .ok read) :
    ∃ mappings : List (List (Value × Value)), items = mappings.map .mapping := by
  induction items generalizing m with
  | nil => exact ⟨[], rfl⟩
  | cons item rest ih =>
      cases item with
      | mapping entries =>
          rw [putEach] at h
          cases hentries : m.putAll entries with
          | error e => simp [hentries, bind, Except.bind] at h
          | ok m' =>
              rw [hentries] at h
              obtain ⟨mappings, rfl⟩ := ih h
              exact ⟨entries :: mappings, rfl⟩
      | _ => cases h

end Entries

/-! ### Maps that are read -/

section Read

variable {v : Value} {read : StringMap String} {entries : List (Value × Value)}
  {pairs : List (String × String)}

/-- **The form in which entries are written does not count.** -/
theorem ofValue_eq_putAll (lists : v.Lists entries) : ofValue v = putAll [] entries := by
  cases lists with
  | null => rfl
  | mapping => rfl
  | sequence mappings => exact putEach_mappings [] mappings

/-- What is read as a map has one of the forms. -/
theorem exists_lists_of_ofValue (h : ofValue v = .ok read) : ∃ entries, v.Lists entries := by
  unfold ofValue at h
  split at h
  · exact ⟨_, .null⟩
  · exact ⟨_, .mapping _⟩
  · obtain ⟨mappings, rfl⟩ := exists_mappings_of_putEach h
    exact ⟨_, .sequence mappings⟩
  · cases h

theorem ofValue_of_prints (lists : v.Lists entries) (prints : Prints entries pairs) :
    ∃ m, ofValue v = .ok m ∧ m.Gathers pairs := by
  rw [ofValue_eq_putAll lists]
  exact gathers_putAll .nil prints

/-- No key stands twice in a map that is read. -/
theorem nodup_keys_ofValue (h : ofValue v = .ok read) : read.keys.Nodup := by
  obtain ⟨entries, lists⟩ := exists_lists_of_ofValue h
  obtain ⟨pairs, prints⟩ := exists_prints_of_putAll ((ofValue_eq_putAll lists).symm.trans h)
  obtain ⟨m, hm, gathers⟩ := ofValue_of_prints lists prints
  obtain rfl := Except.ok.inj (hm.symm.trans h)
  exact gathers.distinct

/-- A value is read as a map exactly if it lists entries that are made of scalars. -/
theorem exists_ofValue_iff : (∃ m, ofValue v = .ok m) ↔
    ∃ entries, v.Lists entries ∧ ∀ entry ∈ entries, entry.1.IsScalar ∧ entry.2.IsScalar := by
  constructor
  · rintro ⟨m, h⟩
    obtain ⟨entries, lists⟩ := exists_lists_of_ofValue h
    rw [ofValue_eq_putAll lists] at h
    exact ⟨entries, lists, Yaml.exists_prints_iff.mp (exists_prints_of_putAll h)⟩
  · rintro ⟨entries, lists, scalars⟩
    obtain ⟨pairs, prints⟩ := Yaml.exists_prints_iff.mpr scalars
    obtain ⟨m, h, -⟩ := ofValue_of_prints lists prints
    exact ⟨m, h⟩

/-- **When there is a map, and which one**, for all values.  There is one exactly if the value is
null, a mapping or a list of mappings, and all keys and values are scalars.  It holds each printed
key once, where this comes first, with the value that comes last.  Two values that list the same
entries one behind the other are read alike, however the entries are grouped.  A mapping whose keys
print differently is the map of its entries as they are printed. -/
theorem ofValue_gathers (v : Value) :
    ((∃ m, ofValue v = .ok m) ↔ ∃ entries, v.Lists entries ∧
        ∀ entry ∈ entries, entry.1.IsScalar ∧ entry.2.IsScalar) ∧
      (∀ entries pairs, v.Lists entries → Prints entries pairs →
        ∃ m, ofValue v = .ok m ∧ m.Gathers pairs) ∧
      (∀ v' entries, v.Lists entries → v'.Lists entries → ofValue v = ofValue v') ∧
      ∀ entries pairs, v = .mapping entries → Prints entries pairs → (keys pairs).Nodup →
        ofValue v = .ok pairs := by
  refine ⟨exists_ofValue_iff, fun entries pairs => ofValue_of_prints,
    fun v' entries lists lists' => ?_, ?_⟩
  · rw [ofValue_eq_putAll lists, ofValue_eq_putAll lists']
  · rintro entries pairs rfl prints distinct
    obtain ⟨m, h, gathers⟩ := ofValue_of_prints (.mapping entries) prints
    rw [h, gathers.unique (gathers_self distinct)]

/-- Keys that print alike, in two mappings of a list: the first one keeps its place, and the last
one its value. -/
example : ofValue (.sequence [
      .mapping [(.number (.integer 1), .string "a"), (.string "user", .null)],
      .mapping [(.string "1", .bool true)]]) =
    .ok [("1", "true"), ("user", "")] := by
  rfl

end Read

end StringMap

end NodeFencing
