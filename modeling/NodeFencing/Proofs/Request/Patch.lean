import NodeFencing.Proofs.Json.Merge
import NodeFencing.Proofs.Request.Codec

/-!
# A status is replaced by its patch

A status is stored by a merge patch.  As every field is written, and what is empty is written
as null, nothing of the old status is left: what is read back is the new one.  The patch
touches neither the specification of the request, nor unknown members of its status.

## Main statements

* `Status.writtenIn_mergeMembers` — an object that a status was merged into holds this status
* `Status.get?_mergePatch_status`, `Status.get?_mergePatch_other` — what the patch changes
* `Status.patch_replaces` — the new status is read back, and nothing else is changed
-/

namespace NodeFencing.Status

open Json (mergeMember mergeMembers)

variable {s : Status} {members : StringMap Json} {key : String} {j : Json}

/-- No field of a status is an object, so none is merged into what was there. -/
theorem ne_object_of_get? (h : s.toJson.get? key = some j) (changes : StringMap Json) :
    j ≠ .object changes := by
  have unmerged : ∀ e ∈ s.toJson.members, e.2 ≠ .object changes := by
    obtain ⟨complete, result, config, activeMethod, activeJob, updates⟩ := s
    simp only [toJson, Json.members, List.forall_mem_cons, List.not_mem_nil, false_imp_iff,
      implies_true, and_true]
    refine ⟨?_, ?_, nofun, ?_, ?_, nofun⟩
    · cases activeJob <;> nofun
    · cases activeMethod <;> nofun
    · cases config <;> nofun
    · cases result <;> nofun
  rw [Json.get?_eq_members] at h
  exact unmerged (key, j) (StringMap.mem_of_get? h)

theorem nodup_keys_toJson (s : Status) : s.toJson.members.keys.Nodup := by
  change ["activeJob", "activeMethod", "complete", "config", "result", "updates"].Nodup
  decide

/-- A status that is written by itself is held by what is written. -/
theorem writtenIn_toJson (s : Status) : s.WrittenIn s.toJson.members where
  distinct := s.nodup_keys_toJson
  member h := by
    rw [← Json.get?_eq_members, h]
    rfl

/-- A member that no status has may stand there too. -/
theorem WrittenIn.cons (h : s.WrittenIn members) (unknown : s.toJson.get? key = none)
    (hkey : key ∉ members.keys) (j : Json) : s.WrittenIn ((key, j) :: members) where
  distinct := List.nodup_cons.mpr ⟨hkey, h.distinct⟩
  member {k written} hk := by
    have different : k ≠ key := by
      rintro rfl
      rw [unknown] at hk
      cases hk
    rw [StringMap.get?_cons, if_neg different]
    exact h.member hk

/-- **An object that a status was merged into holds this status**, whatever it held before. -/
theorem writtenIn_mergeMembers (distinct : members.keys.Nodup) :
    s.WrittenIn (mergeMembers members s.toJson.members) where
  distinct := Json.nodup_keys_mergeMembers distinct
  member {key j} h := by
    have named : s.toJson.members.get? key = some j := by rwa [← Json.get?_eq_members]
    rw [Json.get?_mergeMembers s.nodup_keys_toJson, named]
    exact Json.getD_mergeMember (ne_object_of_get? h) _

/-- Members that no status has are left alone. -/
theorem get?_mergeMembers_of_none (h : s.toJson.get? key = none) :
    StringMap.get? (mergeMembers members s.toJson.members) key = members.get? key := by
  have unnamed : s.toJson.members.get? key = none := by rwa [← Json.get?_eq_members]
  rw [Json.get?_mergeMembers s.nodup_keys_toJson, unnamed]

/-- What a patch names: the status, and with a revision the metadata. -/
theorem patch_eq_object (s : Status) (revision : Option String) :
    ∃ changes : StringMap Json, s.patch revision = .object changes ∧ changes.keys.Nodup ∧
      changes.get? "status" = some s.toJson ∧
      ∀ key, key ≠ "status" → key ≠ "metadata" → changes.get? key = none := by
  cases revision with
  | none =>
      refine ⟨[("status", s.toJson)], rfl, List.nodup_singleton "status", rfl,
        fun key hstatus _ => ?_⟩
      rw [StringMap.get?_cons, if_neg hstatus]
      rfl
  | some rv =>
      have distinct : ["metadata", "status"].Nodup := by decide
      refine ⟨[("metadata", .object [("resourceVersion", .string rv)]), ("status", s.toJson)], rfl,
        distinct, rfl, fun key hstatus hmetadata => ?_⟩
      rw [StringMap.get?_cons, if_neg hmetadata, StringMap.get?_cons, if_neg hstatus]
      rfl

variable {stored : Json} {revision : Option String}

theorem get?_mergePatch_status :
    (stored.mergePatch (s.patch revision)).get? "status" =
      mergeMember (stored.get? "status") s.toJson := by
  obtain ⟨changes, hpatch, distinct, hstatus, -⟩ := s.patch_eq_object revision
  rw [hpatch, Json.get?_mergePatch distinct, hstatus]

theorem get?_mergePatch_other (hstatus : key ≠ "status") (hmetadata : key ≠ "metadata") :
    (stored.mergePatch (s.patch revision)).get? key = stored.get? key := by
  obtain ⟨changes, hpatch, distinct, -, other⟩ := s.patch_eq_object revision
  rw [hpatch, Json.get?_mergePatch distinct, other key hstatus hmetadata]

/-- **The patch leaves exactly the new status.**  Where an object holds one status, perhaps among
unknown members, another one is read back after its patch.  Unknown members of the status stay,
and so does all of the object but its metadata and its status. -/
theorem patch_replaces {old new : Status} {stored : Json} {written : StringMap Json}
    (revision : Option String) (hstatus : stored.get? "status" = some (.object written))
    (hold : old.WrittenIn written) :
    Status.decoder (.object written) = .ok old ∧
    (∃ rewritten : StringMap Json,
      (stored.mergePatch (new.patch revision)).get? "status" = some (.object rewritten) ∧
      Status.decoder (.object rewritten) = .ok new ∧ new.WrittenIn rewritten ∧
      ∀ key, new.toJson.get? key = none → rewritten.get? key = written.get? key) ∧
    (stored.mergePatch (new.patch revision)).get? "spec" = stored.get? "spec" ∧
    ∀ key, key ≠ "status" → key ≠ "metadata" →
      (stored.mergePatch (new.patch revision)).get? key = stored.get? key := by
  have holds : new.WrittenIn (mergeMembers written new.toJson.members) :=
    writtenIn_mergeMembers hold.distinct
  have merged : (stored.mergePatch (new.patch revision)).get? "status" =
      some (.object (mergeMembers written new.toJson.members)) := by
    rw [get?_mergePatch_status, hstatus]
    rfl
  have other : ∀ key, key ≠ "status" → key ≠ "metadata" →
      (stored.mergePatch (new.patch revision)).get? key = stored.get? key :=
    fun _ => get?_mergePatch_other
  exact ⟨hold.decoder,
    ⟨_, merged, holds.decoder, holds, fun _ => get?_mergeMembers_of_none⟩,
    other "spec" (by decide) (by decide), other⟩

/-- When a request ends its job is cleared and its log grows; what else was noted in its status
stays. -/
theorem patch_replaces_finalized :
    let old : Status :=
      Status.record
        { config := some "racks", activeMethod := some "ipmi", activeJob := some "job-1" }
        ⟨0, 0⟩ (some "ipmi") .jobDispatched "job-1"
    let new : Status := old.finalize ⟨60, 0⟩ .success
    let stored : Json := .object [
      ("metadata", .object [("name", .string "fence-n1"), ("resourceVersion", .string "6")]),
      ("spec", .object [("target", .string "n1")]),
      ("status", .object (("observed", .bool true) :: old.toJson.members))]
    ∃ rewritten : StringMap Json,
      (stored.mergePatch (new.patch (some "6"))).get? "status" = some (.object rewritten) ∧
      Status.decoder (.object rewritten) = .ok new ∧
      rewritten.get? "observed" = some (.bool true) := by
  intro old new stored
  have hold : old.WrittenIn (("observed", .bool true) :: old.toJson.members) := by
    refine old.writtenIn_toJson.cons rfl ?_ (.bool true)
    change "observed" ∉
      ["activeJob", "activeMethod", "complete", "config", "result", "updates"]
    decide
  obtain ⟨-, ⟨rewritten, merged, read, -, kept⟩, -⟩ :=
    @patch_replaces old new stored _ (some "6") rfl hold
  exact ⟨rewritten, merged, read, kept "observed" rfl⟩

end NodeFencing.Status
