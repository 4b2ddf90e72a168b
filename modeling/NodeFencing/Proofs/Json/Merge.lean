import NodeFencing.Json.Basic
import NodeFencing.Proofs.StringMap

/-!
# Merge patches

A merge patch says how a JSON value changes.  A member that is null in the patch removes the
member of this name, an object is merged into what stands there, and anything else, an array
too, takes its place.  Members that the patch does not name stay as they are.

## Main Definitions

* `Json.mergePatch` — a value after a merge patch
* `Json.mergeMember` — a member after a merge patch

## Main statements

* `Json.get?_mergeMembers`, `Json.get?_mergePatch` — each member afterwards
* `Json.nodup_keys_mergeMembers` — no member comes to stand twice
-/

namespace NodeFencing.Json

/-- The members of an object; nothing else has members. -/
def members : Json → StringMap Json
  | object members => members
  | _ => []

theorem get?_eq_members (j : Json) (key : String) : j.get? key = j.members.get? key := by
  cases j <;> rfl

mutual

/-- A value after a merge patch. -/
def mergePatch (target : Json) : Json → Json
  | object changes => object (mergeMembers target.members changes)
  | other => other

/-- The members of an object after those of a merge patch, one after the other. -/
def mergeMembers (members : StringMap Json) : List (String × Json) → StringMap Json
  | [] => members
  | (key, null) :: changes => mergeMembers (members.erase key) changes
  | (key, change) :: changes =>
    mergeMembers (members.put key (((members.get? key).getD null).mergePatch change)) changes

end

/-- A member after a merge patch that names it. -/
def mergeMember (old : Option Json) : Json → Option Json
  | null => none
  | change => some ((old.getD null).mergePatch change)

theorem mergePatch_of_ne_object {change : Json} (h : ∀ changes, change ≠ object changes)
    (target : Json) : target.mergePatch change = change := by
  rw [mergePatch]
  exact h

/-- What is no object is written as it is; a null that removes a member stands for a missing one. -/
theorem getD_mergeMember {change : Json} (h : ∀ changes, change ≠ object changes)
    (old : Option Json) : (mergeMember old change).getD null = change := by
  unfold mergeMember
  split
  · rfl
  · rw [Option.getD_some, mergePatch_of_ne_object h]

/-- The members of an object after the first member of a merge patch. -/
def mergeFirst (members : StringMap Json) (key : String) : Json → StringMap Json
  | null => members.erase key
  | change => members.put key (((members.get? key).getD null).mergePatch change)

variable {members changes : StringMap Json} {key : String} {change : Json}

theorem mergeMembers_cons :
    mergeMembers members ((key, change) :: changes) =
      mergeMembers (mergeFirst members key change) changes := by
  cases change with
  | null => rw [mergeMembers, mergeFirst]
  | _ =>
      rw [mergeMembers, mergeFirst]
      all_goals exact Json.noConfusion

theorem get?_mergeFirst (k : String) :
    (mergeFirst members key change).get? k =
      if k = key then mergeMember (members.get? key) change else members.get? k := by
  cases change with
  | null => exact StringMap.get?_erase k
  | _ => exact StringMap.get?_put k

theorem nodup_keys_mergeFirst (h : members.keys.Nodup) :
    (mergeFirst members key change).keys.Nodup := by
  cases change with
  | null => exact StringMap.nodup_keys_erase h
  | _ => exact StringMap.nodup_keys_put h

/-- **Each member after a merge patch** depends on what stood there and on what the patch says of
it, and on nothing else. -/
theorem get?_mergeMembers (distinct : changes.keys.Nodup) (k : String) :
    (mergeMembers members changes).get? k =
      match StringMap.get? changes k with
      | none => members.get? k
      | some change => mergeMember (members.get? k) change := by
  -- The member that is merged first is not named again, so the rest leaves it alone.
  induction changes generalizing members with
  | nil => rw [mergeMembers]; rfl
  | cons head changes ih =>
      obtain ⟨key, change⟩ := head
      obtain ⟨hkey, hchanges⟩ := List.nodup_cons.mp distinct
      rw [mergeMembers_cons, ih hchanges, get?_mergeFirst, StringMap.get?_cons]
      by_cases hk : k = key
      · subst hk
        rw [if_pos rfl, if_pos rfl, StringMap.get?_eq_none_iff.mpr hkey]
      · rw [if_neg hk, if_neg hk]

theorem get?_mergePatch (distinct : changes.keys.Nodup) (target : Json) (k : String) :
    (target.mergePatch (object changes)).get? k =
      match StringMap.get? changes k with
      | none => target.get? k
      | some change => mergeMember (target.get? k) change := by
  rw [mergePatch, get?_eq_members target]
  exact get?_mergeMembers distinct k

/-- A merge patch lets no member stand twice. -/
theorem nodup_keys_mergeMembers (distinct : members.keys.Nodup) :
    (mergeMembers members changes).keys.Nodup := by
  induction changes generalizing members with
  | nil => rwa [mergeMembers]
  | cons head changes ih =>
      rw [mergeMembers_cons]
      exact ih (nodup_keys_mergeFirst distinct)

end NodeFencing.Json
