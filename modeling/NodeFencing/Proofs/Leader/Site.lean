import Mathlib.Data.List.Basic
import NodeFencing.Leader.Elector
import NodeFencing.Proofs.Program.Traffic

/-!
# The lease as many replicas meet it

All versions that the lease ever had, the time, and the calls that are still on their way
although nobody waits for them: those of replicas that were stopped, and those that were
said to have failed.  Such a call may be carried out at any later time, or never.

A write is carried out only over the revision that it names, and every version gets a
revision of its own.  So a call that was made about an earlier version does nothing any
more.

A lease is stored as it is written, with its times in microseconds.  So a time that is read
in it may lie before the one that the clock has shown, by less than a microsecond.

## Main Definitions

* `Duration.instant` — what the common clock shows at some time
* `Duration.inMicros` — a time in whole microseconds
* `LeaseSite` — the lease, the time, and the calls on their way
* `Lease.stored`, `LeaseSite.Stores` — a lease as it is stored
* `LeaseSite.Answers` — how a call is answered, and what it does to the lease
* `LeaseSite.Settles` — what becomes of the calls on their way
* `LeaseSite.Sound` — revisions tell versions apart, also for the calls on their way

## Main statements

* `Duration.plusSeconds_instant_lt` — the clock in terms of the time
* `Duration.le_inMicros_add` — what a time in microseconds may lack
* `LeaseSite.Answers.sound` — whatever is answered, revisions go on to tell versions apart
-/

namespace NodeFencing

/-! ### The common clock -/

/-- What the common clock shows at some time after 1 January 1970. -/
def Duration.instant (d : Duration) : Instant where
  seconds := d.seconds
  nanos := d.subsecond

theorem Duration.instant_inj {d d' : Duration} (h : d.instant = d'.instant) : d = d' := by
  obtain ⟨n⟩ := d
  obtain ⟨n'⟩ := d'
  simp only [instant, seconds, subsecond, second, Instant.mk.injEq] at h
  simp only [mk.injEq]
  omega

/-- A whole number of seconds behind an instant of the clock another one has come if and only if
so much time has passed. -/
theorem Duration.plusSeconds_instant_lt {d d' : Duration} {n : Nat} :
    d.instant.plusSeconds n < d'.instant ↔ d + Duration.ofSeconds n < d' := by
  have hsub : d.subsecond < second := Nat.mod_lt _ (by decide)
  have regular : d.instant.inLeapSecond = false := decide_eq_false (Nat.not_le.2 hsub)
  rw [Instant.plusSeconds, regular, if_neg Bool.false_ne_true]
  change _ ∨ _ ↔ d.nanos + n * second < d'.nanos
  simp only [instant, seconds, subsecond, second]
  omega

/-- A time in whole microseconds, without what is beyond them. -/
def Duration.inMicros (d : Duration) : Duration where
  nanos := d.nanos / 1000 * 1000

/-- The most that a time has beyond its microseconds. -/
def Duration.beyondMicros : Duration where
  nanos := 999

namespace Duration

variable {d d' : Duration}

/-- Whole microseconds are read off the clock as they are of the time. -/
theorem inMicros_instant (d : Duration) : d.instant.inMicros = d.inMicros.instant := by
  simp only [instant, Instant.inMicros, inMicros, seconds, subsecond, second, Instant.mk.injEq]
  omega

theorem le_inMicros_add : d ≤ d.inMicros + beyondMicros := by
  change d.nanos ≤ d.nanos / 1000 * 1000 + 999
  omega

theorem inMicros_mono (h : d ≤ d') : d.inMicros ≤ d'.inMicros :=
  Nat.mul_le_mul_right _ (Nat.div_le_div_right h)

end Duration

/-! ### Sites -/

/-- A lease as it is stored at some revision. -/
def Lease.stored (l : Lease) (revision : String) : Lease :=
  { l.inMicros with metadata := { l.metadata with resourceVersion := some revision } }

/-- The lease, the time, and the calls on their way. -/
structure LeaseSite where
  /-- The time, from 1 January 1970 on. -/
  time : Duration := {}
  /-- All versions of the lease, the latest one at the end. -/
  versions : List Lease := []
  /-- The calls that nobody waits for, but that may still be carried out. -/
  strays : List LeaseCall := []

namespace LeaseSite

/-- The lease as it is. -/
def lease? (w : LeaseSite) : Option Lease :=
  w.versions.getLast?

/-- The replica that holds the lease. -/
def holder? (w : LeaseSite) : Option String :=
  w.lease?.bind Lease.holder?

/-- The site with a new version of the lease. -/
def add (w : LeaseSite) (l : Lease) : LeaseSite :=
  { w with versions := w.versions ++ [l] }

/-- The site with calls on their way. -/
def stray (w : LeaseSite) (cs : List LeaseCall) : LeaseSite :=
  { w with strays := w.strays ++ cs }

@[simp] theorem lease?_add (w : LeaseSite) (l : Lease) : (w.add l).lease? = some l := by
  simp [lease?, add]

/-- A lease as it is stored: what it says is kept as it is written, with its times in microseconds,
and the revision is a new one. -/
structure Stores (w : LeaseSite) (l l' : Lease) : Prop where
  spec : l'.spec = l.inMicros.spec
  numbered : l'.metadata.resourceVersion ≠ none
  fresh : ∀ v ∈ w.versions, v.metadata.resourceVersion ≠ l'.metadata.resourceVersion

theorem stores_stored {w : LeaseSite} (l : Lease) {revision : String}
    (fresh : ∀ v ∈ w.versions, v.metadata.resourceVersion ≠ some revision) :
    w.Stores l (l.stored revision) :=
  ⟨rfl, fun h => (nomatch h), fresh⟩

/-- How a call is answered.  The lease is created only where there is none, and replaced only if its
revision is the one that was read.  Any call may fail, and be carried out nevertheless. -/
inductive Answers : LeaseSite → (c : LeaseCall) → LeaseStore.Answer c → LeaseSite → Prop
  | find {w} : Answers w .find (.ok w.lease?) w
  | read {w l} (h : w.lease? = some l) : Answers w .read (.ok l) w
  | create {w l l'} (h : w.lease? = none) (stores : w.Stores l l') :
      Answers w (.create l) (.ok l') (w.add l')
  | replace {w l v l'} (h : w.lease? = some v)
      (hrev : v.metadata.resourceVersion = l.metadata.resourceVersion) (stores : w.Stores l l') :
      Answers w (.replace l) (.ok l') (w.add l')
  | fail {w c e} : Answers w c (.error e) (w.stray [c])

/-- A call that is on its way is carried out, or gets lost. -/
def Settles (w w' : LeaseSite) : Prop :=
  ∃ c ∈ w.strays, ∃ a, Answers w c a w'

/-- A site as replicas meet it. -/
def rules {α : Type} : Rules LeaseStore α LeaseSite where
  begins _ _ := False
  answers := Answers
  changes := Settles
  shows w now := now = w.time.instant

/-- A call is made about versions that there have been. -/
def Knows (w : LeaseSite) : LeaseCall → Prop
  | .replace l => ∃ v ∈ w.versions, v.metadata = l.metadata
  | _ => True

/-- Every version has a revision of its own, and so have those that calls on their way are made
about. -/
structure Sound (w : LeaseSite) : Prop where
  distinct : ∀ v ∈ w.versions, ∀ v' ∈ w.versions,
    v.metadata.resourceVersion = v'.metadata.resourceVersion → v = v'
  strays : ∀ c ∈ w.strays, w.Knows c

variable {w w' : LeaseSite} {c : LeaseCall}

theorem mem_of_lease? {l : Lease} (h : w.lease? = some l) : l ∈ w.versions :=
  List.mem_of_getLast? h

/-- The lease is what its revision says. -/
theorem Sound.inForce (hw : w.Sound) {l v : Lease} (known : l ∈ w.versions)
    (hv : w.lease? = some v) (hrev : v.metadata.resourceVersion = l.metadata.resourceVersion) :
    v = l :=
  hw.distinct v (mem_of_lease? hv) l known hrev

theorem Knows.mono (hv : w.versions <+: w'.versions) (h : w.Knows c) : w'.Knows c := by
  cases c with
  | replace l =>
      obtain ⟨v, hmem, hmeta⟩ := h
      exact ⟨v, hv.subset hmem, hmeta⟩
  | _ => trivial

namespace Answers

variable {a : LeaseStore.Answer c}

theorem time (h : w.Answers c a w') : w'.time = w.time := by
  cases h <;> rfl

theorem versions (h : w.Answers c a w') : w.versions <+: w'.versions := by
  cases h with
  | create | replace => exact List.prefix_append ..
  | _ => exact List.prefix_rfl

end Answers

theorem Settles.time (h : w.Settles w') : w'.time = w.time := by
  obtain ⟨c, -, a, hans⟩ := h
  exact hans.time

theorem Sound.add (hw : w.Sound) {l l' : Lease} (h : w.Stores l l') : (w.add l').Sound := by
  refine ⟨fun v hv v' hv' heq => ?_, fun c hc => ?_⟩
  · rcases List.mem_append.1 hv with old | new <;> rcases List.mem_append.1 hv' with old' | new'
    · exact hw.distinct v old v' old' heq
    · rw [List.mem_singleton.1 new'] at heq
      exact absurd heq (h.fresh v old)
    · rw [List.mem_singleton.1 new] at heq
      exact absurd heq.symm (h.fresh v' old')
    · rw [List.mem_singleton.1 new, List.mem_singleton.1 new']
  · exact (hw.strays c hc).mono (List.prefix_append ..)

theorem Sound.stray (hw : w.Sound) {cs : List LeaseCall} (h : ∀ c ∈ cs, w.Knows c) :
    (w.stray cs).Sound := by
  refine ⟨hw.distinct, fun c hc => ?_⟩
  rcases List.mem_append.1 hc with hc | hc
  · exact hw.strays c hc
  · exact h c hc

theorem Answers.sound {a : LeaseStore.Answer c} (hw : w.Sound) (hc : w.Knows c)
    (h : w.Answers c a w') : w'.Sound := by
  cases h with
  | find | read => exact hw
  | create _ stores => exact hw.add stores
  | replace _ _ stores => exact hw.add stores
  | fail => exact hw.stray fun c' hc' => List.mem_singleton.1 hc' ▸ hc

end LeaseSite

end NodeFencing
