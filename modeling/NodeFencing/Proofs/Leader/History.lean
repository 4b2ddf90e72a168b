import Mathlib.Data.List.Induction
import NodeFencing.Proofs.Leader.Custody

/-!
# What a lease tells of its past

The record of a lease counts how often the lease has passed to a claimant that was not named
in it before, and says when this has happened last.  Both numbers are made by the replicas,
each from the version that it has read; so they are true of the whole past only because every
write lands over that very version.

A name is compared as it is written, also if it is the empty one, which is nobody's.  A lease
that was given back names nobody, so any claim on it counts, also one of the replica that has
given it back.

The times are stored in microseconds.  A record that was read holds no others, so to write it
once more leaves the times alone that are not changed.

## Main Definitions

* `Deed.beginsTerm`, `Deed.isTransition` — claims of a replica that was not named before
* `Deed.Edits` — a write that changes some parts of the record, and nothing else
* `Deed.Follows`, `Chronicle` — writes that land one over the other
* `LeaseSpec.Tells` — a record that is true of the writes that have led to it

## Main statements

* `LeaseSpec.Tells.claim`, `LeaseSpec.Tells.edit` — what one write does to the record
* `Chronicle.tells` — every version is true of the writes that have led to it
* `Custody.chronicle_run` — the writes of every run land one over the other
* `Custody.lease_tells_history` — so the lease tells of its past in every run
-/

namespace NodeFencing

/-- The name that is written in a lease, also if it is the empty one. -/
def Lease.named? (l : Lease) : Option String :=
  l.spec.bind (·.holder)

/-! ### Writes -/

namespace Deed

/-- A write by which a replica takes the lease, or takes it once more. -/
def isClaim (d : Deed) : Bool :=
  d.call.errand == .acquire

/-- The name in the version that was replaced. -/
def namedBefore? (d : Deed) : Option String :=
  d.before.bind Lease.named?

/-- A claim of a replica that was not named before; the creation of the lease is one. -/
def beginsTerm (d : Deed) : Bool :=
  d.isClaim && d.namedBefore? != some d.call.elector.holder

/-- A claim of a replica that was not named in the version which it replaces. -/
def isTransition (d : Deed) : Bool :=
  d.before.isSome && d.beginsTerm

/-- A write over some version that changes its record, and nothing else, with what is sent of the
record and what is stored of it.  (Of what is stored, only the record is the replica's own.) -/
def Edits (d : Deed) (sent stored : LeaseSpec → LeaseSpec) : Prop :=
  ∃ l spec, d.before = some l ∧ l.spec = some spec ∧
    d.call.call = .replace { l with spec := some (sent spec) } ∧
    d.after.spec = some (stored spec)

/-- What replicas write over the version that was read. -/
inductive Genuine : Deed → Prop
  | creates {e now after} (stored : after.spec = (e.newLease now).inMicros.spec) :
      Genuine ⟨⟨e, .acquire, some now, .create (e.newLease now)⟩, none, after⟩
  | claims {e l now after} (stored : after.spec = (e.claimed l now).inMicros.spec) :
      Genuine ⟨⟨e, .acquire, some now, .replace (e.claimed l now)⟩, some l, after⟩
  | renews {e l now after} (own : l.holder? = some e.holder)
      (stored : after.spec = (e.renewed l now).inMicros.spec) :
      Genuine ⟨⟨e, .renew, some now, .replace (e.renewed l now)⟩, some l, after⟩
  | releases {e l looked after} (own : l.holder? = some e.holder)
      (stored : after.spec = (Elector.released l).inMicros.spec) :
      Genuine ⟨⟨e, .release, looked, .replace (Elector.released l)⟩, some l, after⟩

/-- A write that lands over the version that the writes before it have left. -/
structure Follows (d : Deed) (past : List Deed) : Prop where
  before : d.before = past.getLast?.map Deed.after
  genuine : d.Genuine

end Deed

/-- Writes that land one over the other, the first of them where there is no lease. -/
def Chronicle (deeds : List Deed) : Prop :=
  ∀ past d rest, deeds = past ++ d :: rest → d.Follows past

/-- A record that is true of the writes that have led to it. -/
structure LeaseSpec.Tells (s : LeaseSpec) (deeds : List Deed) : Prop where
  /-- It counts the claims of replicas that were not named before, but for the creation. -/
  transitions : s.transitions = some (deeds.countP Deed.isTransition : Nat)
  /-- It says when the last claim was made of a replica that was not named before. -/
  acquired : ∃ d now, (deeds.filter Deed.beginsTerm).getLast? = some d ∧
    d.call.looked = some now ∧ s.acquired = some now.inMicros
  /-- Its times are in whole microseconds. -/
  written : s.inMicros = s

/-! ### One write -/

namespace LeaseSpec.Tells

variable {s s' : LeaseSpec} {past : List Deed} {d : Deed}

/-- Whatever is not a claim leaves the record true that keeps these parts of it. -/
theorem edit (h : s.Tells past) (hclaim : d.isClaim = false)
    (htransitions : s'.transitions = s.transitions) (hacquired : s'.acquired = s.acquired) :
    s'.inMicros.Tells (past ++ [d]) := by
  have term : d.beginsTerm = false := by simp [Deed.beginsTerm, hclaim]
  refine ⟨?_, ?_, s'.inMicros_inMicros⟩
  · rw [LeaseSpec.inMicros, htransitions, h.transitions]
    simp [Deed.isTransition, term]
  · have same : s'.inMicros.acquired = s.acquired :=
      (congrArg (Option.map Instant.inMicros) hacquired).trans (acquired_of_inMicros h.written)
    rw [same]
    simpa [List.filter_append, term] using h.acquired

/-- **A claim** leaves the record true: it counts, and begins a term, unless the replica was named
before. -/
theorem claim (h : s.Tells past) {l : Lease} {e : Elector} {now : Instant} {seconds : Nat}
    {c : LeaseCall} {after : Lease} (hl : l.spec = some s) :
    (LeaseSpec.claim (some s) e.holder seconds now).inMicros.Tells
      (past ++ [⟨⟨e, .acquire, some now, c⟩, some l, after⟩]) := by
  obtain ⟨last, time, hlast, hlooked, hacquired⟩ := h.acquired
  have hnamed : l.named? = s.holder := by simp [Lease.named?, hl]
  by_cases own : s.holder = some e.holder
  · -- The replica is named already, so the claim neither counts nor begins a term.
    have term : Deed.beginsTerm ⟨⟨e, .acquire, some now, c⟩, some l, after⟩ = false := by
      simp [Deed.beginsTerm, Deed.namedBefore?, hnamed, own]
    refine ⟨?_, ⟨last, time, ?_, hlooked, ?_⟩, LeaseSpec.inMicros_inMicros _⟩
    · simp [LeaseSpec.inMicros, LeaseSpec.claim, own, h.transitions, Deed.isTransition, term]
    · simpa [List.filter_append, term] using hlast
    · simp [LeaseSpec.inMicros, LeaseSpec.claim, own, hacquired, Instant.inMicros_inMicros]
  · have term : Deed.beginsTerm ⟨⟨e, .acquire, some now, c⟩, some l, after⟩ = true := by
      simp [Deed.beginsTerm, Deed.isClaim, Deed.namedBefore?, hnamed, own]
    refine ⟨?_, ⟨⟨⟨e, .acquire, some now, c⟩, some l, after⟩, now, ?_, rfl, ?_⟩,
      LeaseSpec.inMicros_inMicros _⟩
    · simp [LeaseSpec.inMicros, LeaseSpec.claim, own, h.transitions, Deed.isTransition, term]
    · rw [List.filter_append, List.filter_cons_of_pos term, List.filter_nil, List.getLast?_concat]
    · simp [LeaseSpec.inMicros, LeaseSpec.claim, own]

/-- The record of a new lease is true of its creation. -/
theorem creation {e : Elector} {now : Instant} {seconds : Nat} {c : LeaseCall} {after : Lease} :
    (LeaseSpec.claim none e.holder seconds now).inMicros.Tells
      [⟨⟨e, .acquire, some now, c⟩, none, after⟩] := by
  refine ⟨rfl, ⟨⟨⟨e, .acquire, some now, c⟩, none, after⟩, now, rfl, rfl, rfl⟩, ?_⟩
  exact LeaseSpec.inMicros_inMicros _

end LeaseSpec.Tells

/-! ### All writes -/

namespace Chronicle

variable {deeds past : List Deed} {d : Deed}

theorem nil : Chronicle [] := by
  intro past d rest h
  simp at h

/-- One more write that lands over the last one. -/
theorem add (h : Chronicle deeds) (hd : d.Follows deeds) : Chronicle (deeds ++ [d]) := by
  intro past x rest heq
  rcases List.eq_nil_or_concat rest with rfl | ⟨rest, last, rfl⟩
  · obtain ⟨rfl, hlast⟩ := List.append_inj' heq rfl
    obtain rfl := List.singleton_inj.mp hlast
    exact hd
  · refine h past x rest ?_
    rw [List.concat_eq_append, ← List.cons_append, ← List.append_assoc] at heq
    exact (List.append_inj' heq rfl).1

theorem upto {rest : List Deed} (h : Chronicle (past ++ rest)) : Chronicle past := by
  intro before x behind heq
  exact h before x (behind ++ rest) (by rw [heq, List.append_assoc, List.cons_append])

/-- **Every version is true of the writes that have led to it**, by induction on these. -/
theorem tells (h : Chronicle (past ++ [d])) :
    ∃ spec, d.after.spec = some spec ∧ spec.Tells (past ++ [d]) := by
  induction past using List.reverseRecOn generalizing d with
  | nil =>
      obtain ⟨hbefore, hgenuine⟩ := h [] d [] rfl
      cases hgenuine with
      | creates stored => exact ⟨_, stored, .creation⟩
      | claims | renews | releases => cases hbefore
  | append_singleton past d₀ ih =>
      obtain ⟨spec, hspec, htells⟩ := ih h.upto
      obtain ⟨hbefore, hgenuine⟩ := h (past ++ [d₀]) d [] rfl
      rw [List.getLast?_concat, Option.map_some] at hbefore
      cases hgenuine with
      | creates => cases hbefore
      | claims stored =>
          obtain rfl := Option.some.inj hbefore
          refine ⟨_, stored, ?_⟩
          rw [hspec]
          exact htells.claim hspec
      | renews own stored =>
          obtain rfl := Option.some.inj hbefore
          rw [Lease.inMicros, Elector.renewed, hspec] at stored
          exact ⟨_, stored, htells.edit rfl rfl rfl⟩
      | releases own stored =>
          obtain rfl := Option.some.inj hbefore
          rw [Lease.inMicros, Elector.released, hspec] at stored
          exact ⟨_, stored, htells.edit rfl rfl rfl⟩

end Chronicle

/-! ### Runs -/

/-- A fair call that replaces the lease is one of those that replicas make. -/
theorem SignedCall.Fair.genuine_replace {w : LeaseSite} {e : Elector} {errand : Errand}
    {looked : Option Instant} {l v l' : Lease}
    (h : SignedCall.Fair w.versions ⟨e, errand, looked, .replace l⟩) (hw : w.Sound)
    (hv : w.lease? = some v) (hrev : v.metadata.resourceVersion = l.metadata.resourceVersion)
    (stores : w.Stores l l') : Deed.Genuine ⟨⟨e, errand, looked, .replace l⟩, some v, l'⟩ := by
  cases h with
  | @claim _ tested now known free =>
      obtain rfl : v = tested := hw.inForce known hv hrev
      exact .claims stores.spec
  | @renew _ tested now known own =>
      obtain rfl : v = tested := hw.inForce known hv hrev
      exact .renews own stores.spec
  | @release _ tested looked known own =>
      obtain rfl : v = tested := hw.inForce known hv hrev
      exact .releases own stores.spec

/-- Where there is no lease there is nothing to tell apart. -/
theorem LeaseSite.sound_none : LeaseSite.Sound {} :=
  ⟨fun _ hv => (nomatch hv), fun _ hc => (nomatch hc)⟩

namespace Custody

/-- The version in force is the one that the last write has left. -/
theorem InOrder.lease? {w : Custody} (h : InOrder [] w) :
    w.site.lease? = w.deeds.getLast?.map Deed.after := by
  rw [LeaseSite.lease?, h.recorded, List.nil_append, List.getLast?_map]

/-- A version that is stored over the one in force is one more write of the chronicle. -/
theorem InOrder.chronicle_add {w : Custody} {c : SignedCall} {l : Lease} (h : InOrder [] w)
    (hw : Chronicle w.deeds) (genuine : Deed.Genuine ⟨c, w.site.lease?, l⟩) :
    Chronicle (w.record c (w.site.add l)).deeds := by
  rw [Custody.record_add]
  exact hw.add ⟨h.lease?, genuine⟩

/-- **One fair call**: what it writes lands over the last write. -/
theorem Answers.chronicle {w w' : Custody} {c : SignedCall} {a : SignedStore.Answer c}
    (h : InOrder [] w) (hc : c.Fair w.site.versions) (hans : w.Answers c a w')
    (hw : Chronicle w.deeds) : Chronicle w'.deeds := by
  obtain ⟨e, errand, looked, call⟩ := c
  cases hans with
  | failed => exact hw
  | served hserved done =>
      cases hserved with
      | find | read => exact (record_self w _).symm ▸ hw
      | create hnone stores =>
          refine h.chronicle_add hw ?_
          rw [hnone]
          cases hc with
          | create => exact .creates stores.spec
      | replace hv hrev stores =>
          refine h.chronicle_add hw ?_
          rw [hv]
          exact hc.genuine_replace h.sound hv hrev stores
      | fail => simp [LeaseSite.stray] at done

variable {t : Traffic SignedStore (Except LeaseError Unit) Custody}

/-- **The writes of every run** land one over the other, if there is no lease at first. -/
theorem chronicle_run (hrun : Traffic.Run rules (.quiet { site := {} }) t) :
    InOrder [] t.site ∧ Chronicle t.site.deeds := by
  have start : InOrder [] { site := {} } :=
    ⟨LeaseSite.sound_none, fun _ hc => absurd hc List.not_mem_nil, by simp,
      fun _ hd => absurd hd List.not_mem_nil⟩
  have quiet : Traffic.Orderly (contract []) (fun _ _ => True)
      (Traffic.quiet { site := {} } : Traffic SignedStore (Except LeaseError Unit) Custody) :=
    .quiet start
  refine ⟨(quiet.run contract_binds hrun).2.holds, ?_⟩
  refine quiet.maintains (fun w => Chronicle w.deeds) contract_binds ?_ ?_ .nil hrun
  · exact fun h hc hans => hans.chronicle h hc
  · rintro w w' h ⟨c, hc, a, hans⟩
    exact hans.chronicle h (h.fair c hc)

end Custody

/-! ### What every version tells -/

/-- The lease tells of all writes up to one of them, which has stored the version. -/
structure Deed.Remembers (d : Deed) (past : List Deed) : Prop where
  /-- What was replaced is what the write before has left. -/
  before : d.before = past.getLast?.map Deed.after
  record : ∃ spec, d.after.spec = some spec ∧ spec.Tells (past ++ [d])
  /-- The number of transitions has a place in the record. -/
  fits : fitsSigned 32 ((past ++ [d]).countP Deed.isTransition : Nat) = true
  /-- A renewal changes only the time of renewal and the duration. -/
  renews : d.call.errand = .renew → ∃ now seconds, d.call.looked = some now ∧ d.Edits
    (fun s => { s with renewed := some now, durationSeconds := some seconds })
    (fun s => { s with renewed := some now.inMicros, durationSeconds := some seconds })
  /-- A return changes only the holder and the time of renewal. -/
  releases : d.call.errand = .release → d.Edits
    (fun s => { s with holder := none, renewed := none })
    (fun s => { s with holder := none, renewed := none })
  /-- A claim on a lease that was given back counts, whoever has given it back. -/
  reclaims : ∀ last, past.getLast? = some last → last.call.errand = .release →
    d.isClaim = true → d.isTransition = true

/-- What renews or gives back the lease changes nothing else. -/
theorem Deed.Genuine.edits {d : Deed} (h : d.Genuine)
    (recorded : ∀ l, d.before = some l → ∃ spec, l.spec = some spec ∧ spec.inMicros = spec) :
    (d.call.errand = .renew → ∃ now seconds, d.call.looked = some now ∧ d.Edits
      (fun s => { s with renewed := some now, durationSeconds := some seconds })
      (fun s => { s with renewed := some now.inMicros, durationSeconds := some seconds })) ∧
    (d.call.errand = .release → d.Edits
      (fun s => { s with holder := none, renewed := none })
      (fun s => { s with holder := none, renewed := none })) := by
  cases h with
  | creates | claims => constructor <;> rintro ⟨⟩
  | @renews e l now after own stored =>
      obtain ⟨spec, hspec, written⟩ := recorded l rfl
      constructor
      · intro _
        refine ⟨now, leaseSeconds e.settings.leaseDurationSeconds, rfl, l, spec, rfl, hspec, ?_⟩
        rw [stored, Lease.inMicros, Elector.renewed, hspec]
        simp [LeaseSpec.inMicros, LeaseSpec.acquired_of_inMicros written]
      · rintro ⟨⟩
  | @releases e l looked after own stored =>
      obtain ⟨spec, hspec, written⟩ := recorded l rfl
      constructor
      · rintro ⟨⟩
      · intro _
        refine ⟨l, spec, rfl, hspec, ?_⟩
        rw [stored, Lease.inMicros, Elector.released, hspec]
        simp [LeaseSpec.inMicros, LeaseSpec.acquired_of_inMicros written]

namespace Chronicle

variable {past : List Deed} {d : Deed}

/-- What is replaced has a record, with times in whole microseconds. -/
theorem recorded (h : Chronicle (past ++ [d])) {l : Lease} (hl : d.before = some l) :
    ∃ spec, l.spec = some spec ∧ spec.inMicros = spec := by
  induction past using List.reverseRecOn with
  | nil =>
      rw [(h [] d [] rfl).before] at hl
      cases hl
  | append_singleton past d₀ _ =>
      rw [(h _ d [] rfl).before, List.getLast?_concat, Option.map_some] at hl
      obtain rfl := Option.some.inj hl
      obtain ⟨spec, hspec, htells⟩ := h.upto.tells
      exact ⟨spec, hspec, htells.written⟩

/-- **There are more claims than transitions**, for the first claim has created the lease. -/
theorem countP_lt (h : Chronicle (past ++ [d])) :
    (past ++ [d]).countP Deed.isTransition < (past ++ [d]).countP Deed.isClaim := by
  obtain ⟨first, others, heq⟩ := List.exists_cons_of_ne_nil (List.concat_ne_nil d past)
  obtain ⟨hbefore, hgenuine⟩ := h [] first others heq
  have later : others.countP Deed.isTransition ≤ others.countP Deed.isClaim := by
    refine List.countP_mono_left fun x _ hx => ?_
    simp only [Deed.isTransition, Deed.beginsTerm, Bool.and_eq_true] at hx
    exact hx.2.1
  cases hgenuine with
  | creates =>
      rw [heq, List.countP_cons_of_neg (by simp [Deed.isTransition]),
        List.countP_cons_of_pos rfl]
      exact Nat.lt_succ_of_le later
  | claims | renews | releases => cases hbefore

/-- A lease that was given back names nobody. -/
theorem named?_of_release {last : Deed} (h : last.Genuine)
    (hrelease : last.call.errand = .release) : last.after.named? = none := by
  cases h with
  | creates | claims | renews => cases hrelease
  | @releases e l looked after own stored =>
      rw [Lease.named?, stored, Lease.inMicros, Elector.released]
      cases l.spec <;> rfl

/-- **What every version tells**, as long as the claims can be counted. -/
theorem remembers (h : Chronicle (past ++ [d]))
    (few : (past ++ [d]).countP Deed.isClaim < valuesOf 31) : d.Remembers past := by
  obtain ⟨hbefore, hgenuine⟩ := h past d [] rfl
  obtain ⟨renews, releases⟩ := hgenuine.edits fun _ hl => h.recorded hl
  refine ⟨hbefore, h.tells, ?_, renews, releases, fun last hlast hrelease hclaim => ?_⟩
  · have hcount := h.countP_lt
    have least : leastSigned 32 = -2147483648 := by decide
    have greatest : greatestSigned 32 = 2147483647 := by decide
    have values : valuesOf 31 = 2147483648 := by decide
    rw [fitsSigned_iff, least, greatest]
    omega
  · obtain ⟨front, rfl⟩ := List.getLast?_eq_some_iff.mp hlast
    have hnamed := named?_of_release (h.upto front last [] rfl).genuine hrelease
    rw [hlast, Option.map_some] at hbefore
    simp [Deed.isTransition, Deed.beginsTerm, Deed.namedBefore?, hclaim, hbefore, hnamed]

end Chronicle

namespace Custody

variable {t : Traffic SignedStore (Except LeaseError Unit) Custody}

/-- **The lease tells of its past.**  Replicas go on any errands side by side, and at first there is
no lease.  All versions are stored by the writes on record, and as long as there are fewer than
`2 ^ 31` claims each version counts the claims by which the lease has passed on, and says in whole
microseconds when this has happened last. -/
theorem lease_tells_history (hrun : Traffic.Run rules (.quiet { site := {} }) t)
    (few : t.site.deeds.countP Deed.isClaim < valuesOf 31) :
    t.site.site.versions = t.site.deeds.map Deed.after ∧
      ∀ past d rest, t.site.deeds = past ++ d :: rest → d.Remembers past := by
  obtain ⟨horder, hchronicle⟩ := chronicle_run hrun
  refine ⟨horder.recorded, fun past d rest heq => ?_⟩
  have hsplit : t.site.deeds = (past ++ [d]) ++ rest := by
    rw [heq, List.append_assoc, List.singleton_append]
  rw [hsplit] at hchronicle few
  refine hchronicle.upto.remembers (Nat.lt_of_le_of_lt ?_ few)
  exact (List.sublist_append_left _ rest).countP_le

/-- The lease that the first replica gives back. -/
def returnedVersion : Lease :=
  (Elector.released firstVersion).stored "2"

/-- The lease that it takes once more, almost two microseconds behind a full second. -/
def retakenVersion : Lease :=
  ((contender "a").claimed returnedVersion ⟨20, 1999⟩).stored "3"

/-- A replica that gives the lease back and takes it once more counts as a new holder.  Of the time
when it does so one microsecond is stored. -/
theorem lease_tells_history_retaken :
    ∃ t : Traffic SignedStore (Except LeaseError Unit) Custody,
      Traffic.Run rules (.quiet { site := {} }) t ∧
      t.site.deeds.countP Deed.isClaim < valuesOf 31 ∧
      (∀ past d rest, t.site.deeds = past ++ d :: rest → d.Remembers past) ∧
      t.site.site.versions.map (fun l => l.spec.map fun s => (s.transitions, s.acquired)) =
        [some (some 0, some ⟨0, 0⟩), some (some 0, some ⟨0, 0⟩),
          some (some 1, some ⟨20, 1000⟩)] := by
  have begins (w : Custody) (errand : Errand) : rules.begins w (errand.program (contender "a")) :=
    ⟨contender "a", errand, rfl⟩
  have shown (w : Custody) (now : Instant) : rules.shows w now := trivial
  have created : LeaseSite.Stores {} ((contender "a").newLease ⟨0, 0⟩) firstVersion :=
    LeaseSite.stores_stored _ fun _ hv => (nomatch hv)
  have returned : LeaseSite.Stores { versions := [firstVersion] }
      (Elector.released firstVersion) returnedVersion :=
    LeaseSite.stores_stored _ (by decide)
  have retaken : LeaseSite.Stores { versions := [firstVersion, returnedVersion] }
      ((contender "a").claimed returnedVersion ⟨20, 1999⟩) retakenVersion :=
    LeaseSite.stores_stored _ (by decide)
  have nothing : Traffic.Run rules (.quiet { site := {} }) (.quiet { site := {} }) := .refl
  obtain ⟨⟨w₁, running₁⟩, hrun₁, rfl, rfl⟩ := nothing.begins 0 rfl (begins _ .acquire) <|
    .head (.clock (shown _ ⟨0, 0⟩)) <| .head (.call (.served .find rfl)) <|
    .single (.call (.served (.create rfl created) rfl))
  obtain ⟨⟨w₂, running₂⟩, hrun₂, rfl, rfl⟩ := hrun₁.begins 1 rfl (begins _ .release) <|
    .head (.call (.served (.read rfl) rfl)) <|
    .single (.call (.served (.replace rfl rfl returned) rfl))
  obtain ⟨t, hrun, hsite, -⟩ := hrun₂.begins 2 rfl (begins _ .acquire) <|
    .head (.clock (shown _ ⟨20, 1999⟩)) <| .head (.call (.served .find rfl)) <|
    .single (.call (.served (.replace rfl rfl retaken) rfl))
  have few : t.site.deeds.countP Deed.isClaim < valuesOf 31 := by
    rw [hsite]
    decide
  obtain ⟨-, hremembers⟩ := lease_tells_history hrun few
  refine ⟨t, hrun, few, hremembers, ?_⟩
  rw [hsite]
  rfl

end Custody

end NodeFencing
