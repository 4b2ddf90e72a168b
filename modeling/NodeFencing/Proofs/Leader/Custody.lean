import NodeFencing.Proofs.Leader.Elector
import NodeFencing.Proofs.Leader.Site
import NodeFencing.Proofs.Program.Traffic

/-!
# The lease from hand to hand

Any number of replicas take, renew and give back one lease, each of them as often as it
likes, also several times at once, and by clocks that need not agree.  Every write that is
carried out is put on record, with the replica that has sent it, what it was about, and
what the clock showed when the replica last looked.

A replica tests the lease that it has read, and its write is carried out only over the
very version that was read.  So the test is true of the version that is replaced, however
much time has passed in between, and also if the write was on its way for long.

## Main Definitions

* `Errand` — what a replica sets out to do
* `SignedCall`, `Program.signed` — calls together with the replica that makes them
* `Custody` — the lease, the calls on their way, and the writes on record
* `SignedCall.Fair` — a call whose test was made on a version that there has been
* `Deed.Rightful` — a write that steals no lease and touches none that is lost

## Main statements

* `Program.unsigned_signed` — signatures change nothing in what a replica does
* `Errand.keeps` — a replica makes only fair calls
* `SignedCall.Fair.rightful` — a fair call that is carried out is rightful
* `Custody.lease_passes_rightfully` — so are all writes of a run
-/

namespace NodeFencing

/-! ### Signed calls -/

/-- What a replica sets out to do with the lease. -/
inductive Errand where
  | acquire
  | renew
  | release
  deriving Repr, DecidableEq

/-- What it does for that. -/
def Errand.task : Errand → Elector → LeaseTask Unit
  | acquire => Elector.tryAcquire
  | renew => Elector.renew
  | release => Elector.release

/-- A call with the replica that makes it, what it is made for, and what the clock showed when the
replica last looked at it. -/
structure SignedCall where
  elector : Elector
  errand : Errand
  looked : Option Instant
  call : LeaseCall

/-- The calls about the lease, signed. -/
def SignedStore : Interface where
  Call := SignedCall
  Answer c := LeaseStore.Answer c.call

/-- A program whose calls are signed. -/
def Program.signed {α : Type} (e : Elector) (errand : Errand) :
    Program LeaseStore α → Option Instant → Program SignedStore α
  | done a, _ => done a
  | call c next, looked => call (I := SignedStore) ⟨e, errand, looked, c⟩ fun answer =>
      (next answer).signed e errand looked
  | pause d next, looked => pause d (next.signed e errand looked)
  | clock next, _ => clock fun now => (next now).signed e errand (some now)

/-- The program without the signatures of its calls. -/
def Program.unsigned {α : Type} : Program SignedStore α → Program LeaseStore α
  | done a => done a
  | call c next => call (I := LeaseStore) c.call fun answer => (next answer).unsigned
  | pause d next => pause d next.unsigned
  | clock next => clock fun now => (next now).unsigned

/-- A signed program does what it does without signatures. -/
theorem Program.unsigned_signed {α : Type} (p : Program LeaseStore α) (e : Elector)
    (errand : Errand) (looked : Option Instant) : (p.signed e errand looked).unsigned = p := by
  induction p generalizing looked with
  | done a => rfl
  | call c next ih => exact congrArg (call c) (funext fun answer => ih answer looked)
  | pause d next ih => exact congrArg (pause d) (ih looked)
  | clock next ih => exact congrArg clock (funext fun now => ih now (some now))

/-- The program of a replica on an errand. -/
def Errand.program (errand : Errand) (e : Elector) : Program SignedStore (Except LeaseError Unit) :=
  (errand.task e).run.signed e errand none

/-! ### The record -/

/-- A write that was carried out. -/
structure Deed where
  /-- The call that has done it. -/
  call : SignedCall
  /-- The version that was replaced, if any. -/
  before : Option Lease
  /-- The version that was stored. -/
  after : Lease

/-- The lease, the calls on their way, and the writes on record. -/
structure Custody where
  site : LeaseSite
  /-- The calls that nobody waits for, but that may still be carried out. -/
  strays : List SignedCall := []
  deeds : List Deed := []

namespace Custody

/-- A call has made another site of it: what is stored now and was not before is a deed of the
call. -/
def record (w : Custody) (c : SignedCall) (site : LeaseSite) : Custody :=
  { w with
    site
    deeds := w.deeds ++ (site.versions.drop w.site.versions.length).map (⟨c, w.site.lease?, ·⟩) }

@[simp] theorem record_self (w : Custody) (c : SignedCall) : w.record c w.site = w := by
  simp [record]

@[simp] theorem record_add (w : Custody) (c : SignedCall) (l : Lease) :
    w.record c (w.site.add l) =
      { w with site := w.site.add l, deeds := w.deeds ++ [⟨c, w.site.lease?, l⟩] } := by
  simp [record, LeaseSite.add]

/-- How a call is answered: it is carried out, or it fails, and may be carried out later. -/
inductive Answers (w : Custody) (c : SignedCall) : SignedStore.Answer c → Custody → Prop
  | served {a site} (h : w.site.Answers c.call a site) (done : site.strays = w.site.strays) :
      Answers w c a (w.record c site)
  | failed {e} : Answers w c (.error e) { w with strays := w.strays ++ [c] }

/-- A call that is on its way is carried out, or gets lost. -/
def Settles (w w' : Custody) : Prop :=
  ∃ c ∈ w.strays, ∃ a, w.Answers c a w'

/-- Replicas with any names and settings go on any errands; a clock may show anything. -/
def rules : Rules SignedStore (Except LeaseError Unit) Custody where
  begins _ p := ∃ e errand, p = Errand.program errand e
  answers := Answers
  changes := Settles

end Custody

/-! ### What is rightful -/

/-- A call whose test was made on a version that there has been: a claim on one that nobody else
holds at the time when the replica looked at the clock, and a renewal or a return on one that the
replica itself holds. -/
inductive SignedCall.Fair (versions : List Lease) : SignedCall → Prop
  | find {e errand looked} : Fair versions ⟨e, errand, looked, .find⟩
  | read {e errand looked} : Fair versions ⟨e, errand, looked, .read⟩
  | create {e now} : Fair versions ⟨e, .acquire, some now, .create (e.newLease now)⟩
  | claim {e l now} (known : l ∈ versions) (free : e.isHeldByOther l now = false) :
      Fair versions ⟨e, .acquire, some now, .replace (e.claimed l now)⟩
  | renew {e l now} (known : l ∈ versions) (own : l.holder? = some e.holder) :
      Fair versions ⟨e, .renew, some now, .replace (e.renewed l now)⟩
  | release {e l looked} (known : l ∈ versions) (own : l.holder? = some e.holder) :
      Fair versions ⟨e, .release, looked, .replace (Elector.released l)⟩

theorem SignedCall.Fair.mono {versions versions' : List Lease} {c : SignedCall}
    (hv : versions <+: versions') (h : c.Fair versions) : c.Fair versions' := by
  cases h with
  | find => exact .find
  | read => exact .read
  | create => exact .create
  | claim known free => exact .claim (hv.subset known) free
  | renew known own => exact .renew (hv.subset known) own
  | release known own => exact .release (hv.subset known) own

/-- The replica that holds the version that was replaced. -/
def Deed.holderBefore? (d : Deed) : Option String :=
  d.before.bind Lease.holder?

/-- A write that steals no lease and touches none that is lost. -/
structure Deed.Rightful (d : Deed) : Prop where
  /-- The lease passes from one holder to another only by the claim of the other, and only if it had
  run out when that one looked at the clock. -/
  spares : ∀ a b, d.holderBefore? = some a → d.after.holder? = some b → a ≠ b →
    d.call.elector.holder = b ∧ d.call.errand = .acquire ∧
      ∃ l now, d.before = some l ∧ d.call.looked = some now ∧ l.expired now = true
  /-- It is renewed and given back only by the replica that holds it. -/
  own : d.call.errand ≠ .acquire → d.holderBefore? = some d.call.elector.holder

section Lease

variable {e : Elector} {l l' : Lease} {now : Instant} {a b : String}

theorem Lease.holder?_congr (h : l'.spec = l.spec) : l'.holder? = l.holder? := by
  rw [holder?, holder?, h]

theorem Elector.holder?_claimed (h : (e.claimed l now).holder? = some b) : e.holder = b := by
  simp only [claimed, Lease.holder?, LeaseSpec.claim, Option.bind_some,
    Option.filter_eq_some_iff] at h
  exact Option.some.inj h.1

@[simp] theorem Elector.holder?_renewed : (e.renewed l now).holder? = l.holder? := by
  cases hspec : l.spec <;> simp [renewed, Lease.holder?, hspec]

@[simp] theorem Elector.holder?_released : (released l).holder? = none := by
  cases hspec : l.spec <;> simp [released, Lease.holder?, hspec]

/-- What is held by another and may be claimed has run out. -/
theorem Elector.expired_of_not_held (hheld : l.holder? = some a) (hother : a ≠ e.holder)
    (free : e.isHeldByOther l now = false) : l.expired now = true := by
  have hname : (a != "") = true := (Option.filter_eq_some_iff.mp hheld).2
  simp only [isHeldByOther, hheld, Option.getD_some, Bool.and_eq_false_iff, Bool.not_eq_false',
    bne_eq_false_iff_eq, String.isEmpty_iff] at free
  rcases free with (hsame | hempty) | hexpired
  · exact absurd hsame hother
  · exact absurd hempty (by simpa using hname)
  · exact hexpired

end Lease

namespace SignedCall.Fair

variable {w : LeaseSite} {e : Elector} {errand : Errand} {looked : Option Instant} {l v l' : Lease}

/-- The first version of the lease is nobody's loss. -/
theorem rightful_create (h : Fair w.versions ⟨e, errand, looked, .create l⟩) :
    Deed.Rightful ⟨⟨e, errand, looked, .create l⟩, none, l'⟩ := by
  cases h with
  | create => exact ⟨fun _ _ hbefore => (nomatch hbefore), fun hne => absurd rfl hne⟩

/-- **A fair call that replaces the lease is rightful**: the version that it replaces is the one on
which its test was made. -/
theorem rightful_replace (h : Fair w.versions ⟨e, errand, looked, .replace l⟩) (hw : w.Sound)
    (hv : w.lease? = some v) (hrev : v.metadata.resourceVersion = l.metadata.resourceVersion)
    (stores : w.Stores l l') :
    Deed.Rightful ⟨⟨e, errand, looked, .replace l⟩, w.lease?, l'⟩ := by
  rw [hv]
  have hholder := (Lease.holder?_congr stores.spec).trans l.holder?_inMicros
  cases h with
  | @claim _ tested now known free =>
      obtain rfl : v = tested := hw.inForce known hv hrev
      refine ⟨fun a b hbefore hafter hne => ?_, fun hne => absurd rfl hne⟩
      obtain rfl : e.holder = b := Elector.holder?_claimed (hholder ▸ hafter)
      exact ⟨rfl, rfl, v, now, rfl, rfl, Elector.expired_of_not_held hbefore hne free⟩
  | @renew _ tested now known own =>
      obtain rfl : v = tested := hw.inForce known hv hrev
      refine ⟨fun a b hbefore hafter hne => absurd ?_ hne, fun _ => own⟩
      rw [hholder, Elector.holder?_renewed] at hafter
      exact Option.some.inj (hbefore.symm.trans hafter)
  | @release _ tested looked known own =>
      obtain rfl : v = tested := hw.inForce known hv hrev
      refine ⟨fun a b _ hafter _ => ?_, fun _ => own⟩
      rw [hholder, Elector.holder?_released] at hafter
      cases hafter

end SignedCall.Fair

/-! ### The contract -/

namespace LeaseSite

/-- A version that is answered is one that there has been. -/
def Tells (w : LeaseSite) : (c : LeaseCall) → LeaseStore.Answer c → Prop
  | .find, answer => ∀ l, answer = .ok (some l) → l ∈ w.versions
  | .read, answer => ∀ l, answer = .ok l → l ∈ w.versions
  | .create _, _ | .replace _, _ => True

theorem Answers.tells {w w' : LeaseSite} {c : LeaseCall} {a : LeaseStore.Answer c}
    (h : w.Answers c a w') : w'.Tells c a := by
  cases h with
  | find => exact fun l hl => mem_of_lease? (Except.ok.inj hl)
  | read hl => exact fun l hok => mem_of_lease? (hl.trans (congrArg some (Except.ok.inj hok)))
  | create | replace => trivial
  | @fail c e =>
      cases c with
      | find | read => exact fun _ hok => nomatch hok
      | create | replace => trivial

end LeaseSite

namespace Custody

/-- All that was stored since some first versions was stored by rightful deeds, and all that is on
its way is fair. -/
structure InOrder (first : List Lease) (w : Custody) : Prop where
  sound : w.site.Sound
  fair : ∀ c ∈ w.strays, c.Fair w.site.versions
  recorded : w.site.versions = first ++ w.deeds.map Deed.after
  rightful : ∀ d ∈ w.deeds, d.Rightful

/-- Under this contract only fair calls are made. -/
def contract (first : List Lease) : Contract SignedStore Custody where
  holds := InOrder first
  evolves w w' := w.site.versions <+: w'.site.versions
  permits w c := c.Fair w.site.versions
  reports w c a := w.site.Tells c.call a
  evolves_refl _ := List.prefix_rfl
  evolves_trans := List.IsPrefix.trans
  permits_mono := SignedCall.Fair.mono

variable {first : List Lease} {w w' : Custody} {c : SignedCall}

/-- A version that is stored by a rightful deed leaves all in order. -/
theorem InOrder.record_add (h : InOrder first w) {l l' : Lease} (stores : w.site.Stores l l')
    (hd : Deed.Rightful ⟨c, w.site.lease?, l'⟩) :
    InOrder first (w.record c (w.site.add l')) := by
  rw [Custody.record_add]
  refine ⟨h.sound.add stores, fun c hc => (h.fair c hc).mono (List.prefix_append ..), ?_, ?_⟩
  · simp [LeaseSite.add, h.recorded]
  · intro d hmem
    rcases List.mem_append.mp hmem with hold | hnew
    · exact h.rightful d hold
    · exact List.mem_singleton.mp hnew ▸ hd

/-- **One fair call**, whatever is answered. -/
theorem Answers.leads {a : SignedStore.Answer c} (h : InOrder first w)
    (hc : c.Fair w.site.versions) (hans : w.Answers c a w') :
    (contract first).Leads w w' ∧ w'.site.Tells c.call a := by
  obtain ⟨e, errand, looked, call⟩ := c
  cases hans with
  | served hserved done =>
      refine ⟨⟨hserved.versions, ?_⟩, hserved.tells⟩
      cases hserved with
      | find | read => exact (record_self w _).symm ▸ h
      | create hnone stores => exact h.record_add stores (hnone ▸ hc.rightful_create)
      | replace hv hrev stores =>
          exact h.record_add stores (hc.rightful_replace h.sound hv hrev stores)
      | fail => simp [LeaseSite.stray] at done
  | failed =>
      refine ⟨⟨List.prefix_rfl, h.sound, fun c' hc' => ?_, h.recorded, h.rightful⟩, ?_⟩
      · rcases List.mem_append.mp hc' with hold | hnew
        · exact h.fair c' hold
        · exact List.mem_singleton.mp hnew ▸ hc
      · cases call with
        | find | read => exact fun _ hok => nomatch hok
        | create | replace => trivial

end Custody

/-! ### What the programs do -/

section Programs

open Custody

variable {first : List Lease} {w : Custody} {e : Elector}

/-- A call with which a program ends. -/
theorem keeps_last {errand : Errand} {looked : Option Instant} {c : LeaseCall}
    {f : LeaseStore.Answer c → Except LeaseError Unit}
    (h : SignedCall.Fair w.site.versions ⟨e, errand, looked, c⟩) :
    ((Program.call (I := LeaseStore) c fun a => .done (f a)).signed e errand looked).Keeps
      (contract first) (fun _ _ => True) w :=
  ⟨h, fun _ _ _ _ => trivial⟩

theorem acquire_keeps : (Errand.acquire.program e).Keeps (contract first) (fun _ _ => True) w := by
  unfold Errand.program Errand.task
  rw [Elector.tryAcquire_run]
  intro w₁ now _ _
  refine ⟨.find, fun w₂ answer _ htold => ?_⟩
  match answer with
  | .error err => exact trivial
  | .ok none => exact keeps_last .create
  | .ok (some l) =>
      cases hheld : e.isHeldByOther l now with
      | true => simp only [hheld]; exact trivial
      | false =>
          simp only [hheld]
          exact keeps_last (.claim (htold l rfl) hheld)

theorem renew_keeps : (Errand.renew.program e).Keeps (contract first) (fun _ _ => True) w := by
  unfold Errand.program Errand.task
  rw [Elector.renew_run]
  refine ⟨.read, fun w₁ answer _ htold => ?_⟩
  match answer with
  | .error err => exact trivial
  | .ok l =>
      by_cases own : Lease.holder? l = some e.holder
      · simp only [if_pos own]
        intro w₂ now hlead _
        exact keeps_last (.renew (hlead.evolves.subset (htold l rfl)) own)
      · simp only [if_neg own]
        exact trivial

theorem release_keeps : (Errand.release.program e).Keeps (contract first) (fun _ _ => True) w := by
  unfold Errand.program Errand.task
  rw [Elector.release_run]
  refine ⟨.read, fun w₁ answer _ htold => ?_⟩
  match answer with
  | .error err => exact trivial
  | .ok l =>
      by_cases own : Lease.holder? l = some e.holder
      · simp only [if_pos own]
        exact keeps_last (.release (htold l rfl) own)
      · simp only [if_neg own]
        exact trivial

/-- **A replica makes only fair calls**, whatever it sets out to do. -/
theorem Errand.keeps (errand : Errand) :
    (errand.program e).Keeps (contract first) (fun _ _ => True) w := by
  cases errand with
  | acquire => exact acquire_keeps
  | renew => exact renew_keeps
  | release => exact release_keeps

end Programs

/-! ### Runs -/

namespace Custody

variable {first : List Lease}

/-- The lease keeps its side of the contract. -/
theorem contract_binds : (contract first).Binds (fun _ _ => True) rules where
  stable _ _ _ _ _ := trivial
  begins _ h := by
    obtain ⟨e, errand, rfl⟩ := h
    exact errand.keeps
  answers h hc hans := hans.leads h hc
  changes h hsettles := by
    obtain ⟨c, hc, a, hans⟩ := hsettles
    exact (hans.leads h (h.fair c hc)).1
  shows _ := trivial

/-- **The lease passes rightfully.**  Replicas go on any errands side by side, their calls are
answered in any order, fail, and are carried out late.  All versions of the lease behind the first
ones are stored by the deeds on record, and these are rightful. -/
theorem lease_passes_rightfully {site : LeaseSite}
    {t : Traffic SignedStore (Except LeaseError Unit) Custody} (hsite : site.Sound)
    (hrun : Traffic.Run rules (.quiet { site }) t) :
    t.site.site.versions = site.versions ++ t.site.deeds.map Deed.after ∧
      ∀ d ∈ t.site.deeds, d.Rightful := by
  have start : InOrder site.versions { site } :=
    ⟨hsite, fun _ hc => absurd hc List.not_mem_nil, by simp, fun _ hd => absurd hd List.not_mem_nil⟩
  have quiet : Traffic.Orderly (contract site.versions) (fun _ _ => True)
      (Traffic.quiet { site } : Traffic SignedStore (Except LeaseError Unit) Custody) :=
    .quiet start
  have last := (quiet.run contract_binds hrun).2.holds
  exact ⟨last.recorded, last.rightful⟩

/-- A replica with the settings that are the default. -/
def contender (name : String) : Elector where
  inNamespace := "fencing"
  holder := name

/-- The lease that the first replica creates, and the one that the second replica makes of it. -/
def firstVersion : Lease :=
  ((contender "a").newLease ⟨0, 0⟩).stored "1"

@[inherit_doc firstVersion]
def secondVersion : Lease :=
  ((contender "b").claimed firstVersion ⟨100, 0⟩).stored "2"

/-- The first replica creates the lease and comes to renew it too late: it has read it, but before
it writes, the second replica finds the lease expired and takes it over.  The renewal fails. -/
theorem lease_passes_rightfully_expired :
    LeaseSite.Sound {} ∧ ∃ t : Traffic SignedStore (Except LeaseError Unit) Custody,
      Traffic.Run rules (.quiet { site := {} }) t ∧
      t.site.deeds.map (fun d => (d.holderBefore?, d.after.holder?)) =
        [(none, some "a"), (some "a", some "b")] ∧
      t.site.site.versions = [firstVersion, secondVersion] ∧ ∀ d ∈ t.site.deeds, d.Rightful := by
  have sound : LeaseSite.Sound {} := ⟨fun _ hv => (nomatch hv), fun _ hc => (nomatch hc)⟩
  have begins (w : Custody) (e : Elector) (errand : Errand) : rules.begins w (errand.program e) :=
    ⟨e, errand, rfl⟩
  have shown (w : Custody) (now : Instant) : rules.shows w now := trivial
  have first : LeaseSite.Stores {} ((contender "a").newLease ⟨0, 0⟩) firstVersion :=
    LeaseSite.stores_stored _ fun _ hv => (nomatch hv)
  have second : LeaseSite.Stores { versions := [firstVersion] }
      ((contender "b").claimed firstVersion ⟨100, 0⟩) secondVersion :=
    LeaseSite.stores_stored _ (by decide)
  have nothing : Traffic.Run rules (.quiet { site := {} }) (.quiet { site := {} }) := .refl
  obtain ⟨⟨w₁, running₁⟩, hrun₁, rfl, rfl⟩ := nothing.begins 0 rfl
    (begins _ (contender "a") .acquire) <|
    .head (.clock (shown _ ⟨0, 0⟩)) <| .head (.call (.served .find rfl)) <|
    .single (.call (.served (.create rfl first) rfl))
  obtain ⟨⟨w₂, running₂⟩, hrun₂, rfl, rfl⟩ := hrun₁.begins 1 rfl
    (begins _ (contender "a") .renew) <|
    .head (.call (.served (.read rfl) rfl)) <| .single (.clock (shown _ ⟨10, 0⟩))
  obtain ⟨⟨w₃, running₃⟩, hrun₃, rfl, rfl⟩ := hrun₂.begins 2 rfl
    (begins _ (contender "b") .acquire) <|
    .head (.clock (shown _ ⟨100, 0⟩)) <| .head (.call (.served .find rfl)) <|
    .single (.call (.served (.replace rfl rfl second) rfl))
  obtain ⟨t, hrun, hsite, -⟩ := hrun₃.moves (k := 1) rfl <|
    .single (.call (.failed (e := .refused 409)))
  obtain ⟨hversions, hrightful⟩ := lease_passes_rightfully sound hrun
  refine ⟨sound, t, hrun, ?_, ?_, hrightful⟩
  · rw [hsite]
    decide
  · rw [hsite]
    rfl

end Custody

end NodeFencing
