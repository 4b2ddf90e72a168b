import NodeFencing.Json.Decode
import NodeFencing.Proofs.StringMap

/-!
# Reading records

The members of an object may stand in any order, unknown ones may stand among them, and fields
may be absent.  To tell what is read nevertheless, the record is described by claims, each tied
to the name of a field: reading a field settles the claims of its name and keeps the others.

## Main Definitions

* `Json.Decoder.Claims` — claims about a record, by the names of its fields
* `Json.Decoder.Settles` — a change that settles the claims of one name

## Main statements

* `Json.Decoder.changes_eq_ok`, `Json.Decoder.record_eq_ok` — all claims hold of what is read
* `Json.Decoder.list_map` — lists are read back
-/

namespace NodeFencing.Json.Decoder

/-- A list is read back. -/
theorem list_map {α : Type} {decode : Decoder α} {encode : α → Json}
    (back : ∀ a, decode (encode a) = .ok a) (items : List α) :
    list decode (.array (items.map encode)) = .ok items := by
  change (items.map encode).mapM decode = .ok items
  induction items with
  | nil => rfl
  | cons a items ih =>
      rw [List.map_cons, List.mapM_cons, back a, ih]
      rfl

/-! ### Records -/

/-- Claims about a record, each tied to the name of a field. -/
abbrev Claims (σ : Type) := List (String × (σ → Prop))

variable {σ : Type} {claims : Claims σ} {fields : List (Field σ)} {members : StringMap Json}
  {required : List String} {start : σ}

/-- A change after which the claims of a name hold.  Other claims hold if they did before. -/
def Settles (claims : Claims σ) (name : String) (change : σ → σ) : Prop :=
  ∀ c ∈ claims, ∀ r, (c.1 ≠ name → c.2 r) → c.2 (change r)

/-- A field that is read as a value is set to it. -/
theorem field_reads {α : Type} {name : String} {decode : Decoder α} {set : α → σ → σ} {j : Json}
    {a : α} (h : decode j = .ok a) (settles : Settles claims name (set a)) :
    ∃ change, (field name decode set).read j = .ok change ∧ Settles claims name change := by
  refine ⟨set a, ?_, settles⟩
  change set <$> decode j = .ok (set a)
  rw [h]
  rfl

/-- **All claims hold of what is read**, if each field settles those of its name, and those of
absent fields hold at the start. -/
theorem changes_eq_ok (known : ∀ c ∈ claims, ∃ f ∈ fields, f.name = c.1)
    (reads : ∀ f ∈ fields, ∀ j, (f.name, j) ∈ members →
      ∃ change, f.read j = .ok change ∧ Settles claims f.name change)
    (absent : ∀ c ∈ claims, c.1 ∉ members.keys → c.2 start) :
    ∃ r, changes fields start members = .ok r ∧ ∀ c ∈ claims, c.2 r := by
  -- Before each step the claims hold whose names do not stand in the rest.
  induction members generalizing start with
  | nil => exact ⟨start, rfl, fun c hc => absent c hc List.not_mem_nil⟩
  | cons head rest ih =>
      obtain ⟨key, j⟩ := head
      have unread : ∀ c ∈ claims, c.1 ∉ StringMap.keys rest → c.1 ≠ key → c.2 start := by
        intro c hc hrest hkey
        exact absent c hc (List.not_mem_cons_of_ne_of_not_mem hkey hrest)
      have later := fun f hf j hj => reads f hf j (List.mem_cons_of_mem _ hj)
      unfold changes
      cases hfind : fields.find? (·.name == key) with
      | none =>
          refine ih later fun c hc hrest => unread c hc hrest ?_
          rintro rfl
          obtain ⟨f, hf, hname⟩ := known c hc
          exact List.find?_eq_none.mp hfind f hf (beq_iff_eq.mpr hname)
      | some f =>
          obtain rfl : f.name = key := by simpa using List.find?_some hfind
          obtain ⟨change, hread, settles⟩ :=
            reads f (List.mem_of_find?_eq_some hfind) j List.mem_cons_self
          dsimp only
          rw [hread]
          exact ih later fun c hc hrest => settles c hc start (unread c hc hrest)

/-- **A record is read** as the one of which all claims hold, if none of its required members is
missing. -/
theorem record_eq_ok (claims : Claims σ) {r : σ} (only : ∀ r', (∀ c ∈ claims, c.2 r') → r' = r)
    (known : ∀ c ∈ claims, ∃ f ∈ fields, f.name = c.1)
    (reads : ∀ f ∈ fields, ∀ j, (f.name, j) ∈ members →
      ∃ change, f.read j = .ok change ∧ Settles claims f.name change)
    (absent : ∀ c ∈ claims, c.1 ∉ members.keys → c.2 start)
    (complete : ∀ name ∈ required, name ∈ members.keys) :
    record fields required start (.object members) = .ok r := by
  obtain ⟨r', hr', holds⟩ := changes_eq_ok known reads absent
  have present : (required.find? fun name => !members.any (·.1 == name)) = none := by
    refine List.find?_eq_none.mpr fun name hname => ?_
    simpa [StringMap.keys] using complete name hname
  rw [record, hr']
  dsimp only
  rw [present, only r' holds]

end NodeFencing.Json.Decoder
