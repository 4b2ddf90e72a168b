import NodeFencing.Proofs.Json.Record
import NodeFencing.Request.Codec

/-!
# Statuses in JSON

A status is read back from every object that holds it: in whatever order its members stand,
with unknown members among them, and with those missing that are null.

## Main Definitions

* `Status.WrittenIn` — an object that holds a status

## Main statements

* `Result.named?_name`, `Update.decoder_toJson` — milestones and entries are read back
* `Status.WrittenIn.decoder` — so are statuses
-/

namespace NodeFencing

open Json (Decoder)
open Json.Decoder (Claims Settles field field_reads)

theorem Result.named?_name (result : Result) : named? result.name = some result := by
  cases result <;> decide

theorem Update.decoder_toJson (u : Update) : Update.decoder u.toJson = .ok u := by
  obtain ⟨timestamp, method, message, error⟩ := u
  cases method <;> cases error <;> rfl

namespace Status

/-- An object that holds a status, missing members being null.  It may have other members. -/
structure WrittenIn (s : Status) (members : StringMap Json) : Prop where
  distinct : members.keys.Nodup
  member {key : String} {j : Json} (h : s.toJson.get? key = some j) :
    (members.get? key).getD .null = j

/-- What is to be read back of a status. -/
def claims (s : Status) : Claims Status := [
  ("complete", (·.complete = s.complete)),
  ("result", (·.result = s.result)),
  ("config", (·.config = s.config)),
  ("activeMethod", (·.activeMethod = s.activeMethod)),
  ("activeJob", (·.activeJob = s.activeJob)),
  ("updates", (·.updates = s.updates))]

variable {s r : Status} {members : StringMap Json}

theorem eq_of_claims (h : ∀ c ∈ s.claims, c.2 r) : r = s := by
  obtain ⟨complete, result, config, activeMethod, activeJob, updates⟩ := r
  simp only [claims, List.forall_mem_cons] at h
  obtain ⟨rfl, rfl, rfl, rfl, rfl, rfl, -⟩ := h
  rfl

/-- A member of such an object is read as what the status has under its name. -/
theorem WrittenIn.reads (h : s.WrittenIn members) {key : String} {j : Json}
    (hj : (key, j) ∈ members) {written : Json} (hwritten : s.toJson.get? key = some written)
    {α : Type} {decode : Decoder α} {a : α} (back : decode written = .ok a) : decode j = .ok a := by
  have hmember := h.member hwritten
  rw [(StringMap.get?_eq_some_iff h.distinct).mpr hj] at hmember
  obtain rfl : j = written := hmember
  exact back

/-- Where a member is missing, the status has null under its name. -/
theorem WrittenIn.eq_null (h : s.WrittenIn members) {key : String} (hkey : key ∉ members.keys)
    {written : Json} (hwritten : s.toJson.get? key = some written) : written = .null := by
  have hmember := h.member hwritten
  rw [StringMap.get?_eq_none_iff.mpr hkey] at hmember
  exact hmember.symm

theorem text?_ofOption (text : Option String) :
    Decoder.text? (Json.ofOption .string text) = .ok text := by
  cases text <;> rfl

theorem result_ofOption (result : Option Result) :
    Decoder.optional (Decoder.variant Result.named?)
      (Json.ofOption (fun r => .string r.name) result) = .ok result := by
  cases result with
  | none => rfl
  | some r =>
      change some <$> Decoder.variant.choose Result.named? r.name = .ok (some r)
      rw [Decoder.variant.choose, Result.named?_name]
      rfl

theorem eq_none_of_ofOption {α : Type} {text : α → String} {a : Option α}
    (h : Json.ofOption (fun a => .string (text a)) a = .null) : a = none := by
  cases a with
  | none => rfl
  | some _ => nomatch h

/-- **A status is read back** from every object that holds it. -/
theorem WrittenIn.decoder (h : s.WrittenIn members) :
    Status.decoder (.object members) = .ok s := by
  unfold Status.decoder
  refine Decoder.record_eq_ok s.claims (fun _ => eq_of_claims) ?known ?reads ?absent nofun
  case known =>
    simp [claims, field]
  case reads =>
    simp only [List.forall_mem_cons, List.not_mem_nil, false_imp_iff, implies_true, and_true]
    refine ⟨fun j hj => ?complete, fun j hj => ?result, fun j hj => ?config,
      fun j hj => ?activeMethod, fun j hj => ?activeJob, fun j hj => ?updates⟩
    case complete => exact field_reads (h.reads hj rfl rfl) (by simp [Settles, claims])
    case result =>
      exact field_reads (h.reads hj rfl (result_ofOption s.result)) (by simp [Settles, claims])
    case config =>
      exact field_reads (h.reads hj rfl (text?_ofOption s.config)) (by simp [Settles, claims])
    case activeMethod =>
      exact field_reads (h.reads hj rfl (text?_ofOption s.activeMethod)) (by simp [Settles, claims])
    case activeJob =>
      exact field_reads (h.reads hj rfl (text?_ofOption s.activeJob)) (by simp [Settles, claims])
    case updates =>
      exact field_reads (h.reads hj rfl (Decoder.list_map Update.decoder_toJson s.updates))
        (by simp [Settles, claims])
  case absent =>
    -- What is never null is not missing; what is missing has not been there.
    simp only [claims, List.forall_mem_cons, List.not_mem_nil, false_imp_iff, implies_true,
      and_true]
    refine ⟨fun hkey => ?complete, fun hkey => ?result, fun hkey => ?config,
      fun hkey => ?activeMethod, fun hkey => ?activeJob, fun hkey => ?updates⟩
    case complete => nomatch h.eq_null hkey rfl
    case result => exact (eq_none_of_ofOption (h.eq_null hkey rfl)).symm
    case config => exact (eq_none_of_ofOption (h.eq_null hkey rfl)).symm
    case activeMethod => exact (eq_none_of_ofOption (h.eq_null hkey rfl)).symm
    case activeJob => exact (eq_none_of_ofOption (h.eq_null hkey rfl)).symm
    case updates => nomatch h.eq_null hkey rfl

end Status

end NodeFencing
