import NodeFencing.Proofs.Leader.Elector
import NodeFencing.Proofs.Leader.Site
import NodeFencing.Proofs.Program.Interference

/-!
# Who has the lease

A lease that says that a replica renewed it at some time is that replica's for a term: no
other replica sees it as expired before.  Within the term the others make no write that
would be carried out over it, and the replica itself only makes writes that prolong it,
unless it gives the lease back.  The time is stored in microseconds, so the term counts from
the last whole microsecond before the replica has looked at the clock.

A call on its way can spoil this only if it was made about the very version that is in
force.  When a replica writes a version of its own, no call has been made about that one
yet, so it begins its term with nothing to fear from the calls that it made before.

## Main Definitions

* `LeaderSettings.term` — how long a lease lasts, as it says itself
* `Lease.Secures`, `LeaseSite.Secures` — the lease is a replica's, at least from some time on
* `Elector.Claims`, `Elector.Renews`, `Elector.Releases`, `Elector.Makes` — the calls of a replica
* `LeaseSite.Leads` — what a replica relies on

## Main statements

* `LeaseSpec.expired_iff`, `Lease.Secures.expired` — others see the lease as expired only behind
  its term
* `LeaseSite.Answers.secures` — calls that spare a replica leave it its lease
* `Elector.Makes.respects` — no other replica makes a call that does not
* `Elector.acquire_obeys`, `Elector.renew_obeys`, `Elector.release_obeys` — what the programs do
-/

namespace NodeFencing

/-- How long a lease lasts, as it says itself: a lease cannot say more than a number of seconds that
fits its record. -/
def LeaderSettings.term (s : LeaderSettings) : Duration :=
  .ofSeconds (leaseSeconds s.leaseDurationSeconds).toNat

variable {e e' : Elector}

/-! ### What a lease says -/

/-- A lease is seen as expired behind the term that its record tells. -/
theorem LeaseSpec.expired_iff {spec : LeaseSpec} {s : LeaderSettings} {renewed now : Duration}
    (hrenewed : spec.renewed = some renewed.instant)
    (hduration : spec.durationSeconds = some (leaseSeconds s.leaseDurationSeconds)) :
    spec.expired now.instant = true ↔ renewed + s.term < now := by
  have hterm : leaseSeconds s.leaseDurationSeconds
      = (leaseSeconds s.leaseDurationSeconds).toNat := by
    simp only [leaseSeconds, greatestSigned]
    omega
  simp only [LeaseSpec.expired, hrenewed, hduration, decide_eq_true_eq]
  rw [hterm, Duration.plusSeconds_instant_lt]
  rfl

/-- A lease says that a replica holds it, and that it renewed it at some time or later. -/
structure Lease.Secures (l : Lease) (e : Elector) (since : Duration) : Prop where
  holder : l.holder? = some e.holder
  record : ∃ spec m, l.spec = some spec ∧ spec.renewed = some (Duration.instant m) ∧ since ≤ m ∧
    spec.durationSeconds = some (leaseSeconds e.settings.leaseDurationSeconds)

namespace Lease.Secures

variable {l l' : Lease} {since : Duration}

theorem congr (h : l.Secures e since) (hspec : l'.spec = l.spec) : l'.Secures e since :=
  ⟨by rw [holder?, hspec]; exact h.holder, by rw [hspec]; exact h.record⟩

/-- Nobody sees a lease as expired before its term has passed. -/
theorem expired (h : l.Secures e since) {now : Duration} (hexp : l.expired now.instant = true) :
    since + e.settings.term < now := by
  obtain ⟨spec, m, hspec, hrenewed, hle, hduration⟩ := h.record
  rw [Lease.expired, hspec] at hexp
  have hlt : m + e.settings.term < now := (LeaseSpec.expired_iff hrenewed hduration).1 hexp
  exact Nat.lt_of_le_of_lt (Nat.add_le_add_right hle _) hlt

/-- A replica that has a name holds a lease that it claims, once it is stored. -/
theorem claimed (hname : e.holder ≠ "") {n : Duration} (h : since ≤ n.inMicros)
    (hspec : l.spec = some (LeaseSpec.claim previous e.holder e.settings.leaseDurationSeconds
      n.instant)) : l.inMicros.Secures e since := by
  refine ⟨?_, _, n.inMicros, by rw [Lease.inMicros, hspec]; rfl,
    congrArg some n.inMicros_instant, h, rfl⟩
  rw [holder?_inMicros]
  simp [holder?, hspec, LeaseSpec.claim, hname]

/-- A lease that is renewed stays with its holder. -/
theorem renewed (hown : l.holder? = some e.holder) {n : Duration} (h : since ≤ n.inMicros) :
    (e.renewed l n.instant).inMicros.Secures e since := by
  cases hspec : l.spec with
  | none => simp [holder?, hspec] at hown
  | some spec =>
      refine ⟨?_, _, n.inMicros, by rw [Lease.inMicros, Elector.renewed, hspec]; rfl,
        congrArg some n.inMicros_instant, h, rfl⟩
      rw [holder?_inMicros]
      simpa [holder?, Elector.renewed, hspec] using hown

/-- Within the term of a lease it is held by another. -/
theorem heldByOther (h : l.Secures e' since) (hother : e'.holder ≠ e.holder) {now : Duration}
    (hfree : e.isHeldByOther l now.instant = false) : since + e'.settings.term < now := by
  have hname : e'.holder ≠ "" := by
    have hmem : some e'.holder = (l.spec.bind (·.holder)).filter (· != "") := h.holder.symm
    have := (Option.filter_eq_some_iff.1 hmem.symm).2
    simpa using this
  simp only [Elector.isHeldByOther, h.holder, Option.getD_some, Bool.and_eq_false_iff,
    Bool.not_eq_false', bne_eq_false_iff_eq, String.isEmpty_iff] at hfree
  rcases hfree with (hsame | hempty) | hexp
  · exact absurd hsame hother
  · exact absurd hempty hname
  · exact h.expired hexp

end Lease.Secures

/-! ### Calls that spare a replica -/

namespace LeaseSite

variable {w w' : LeaseSite} {c : LeaseCall} {since : Duration}

/-- If a call were carried out now, a replica would still have the lease afterwards. -/
def Spares (w : LeaseSite) (e : Elector) (since : Duration) (c : LeaseCall) : Prop :=
  ∀ l v, c = .replace l → w.lease? = some v →
    v.metadata.resourceVersion = l.metadata.resourceVersion → l.inMicros.Secures e since

/-- A replica has the lease, and no call on its way can take it away. -/
structure Secures (w : LeaseSite) (e : Elector) (since : Duration) : Prop where
  lease : ∃ l, w.lease? = some l ∧ l.Secures e since
  strays : ∀ c ∈ w.strays, w.Spares e since c

/-- A call does not take its lease from a replica within its term. -/
def Respects (w : LeaseSite) (e : Elector) (c : LeaseCall) : Prop :=
  ∀ since, w.time ≤ since + e.settings.term → w.Secures e since → w.Spares e since c

theorem Secures.holder? (h : w.Secures e since) : w.holder? = some e.holder := by
  obtain ⟨l, hl, hsec⟩ := h.lease
  rw [LeaseSite.holder?, hl]
  exact hsec.holder

/-- No call on its way was made about a version that is just stored. -/
theorem Stores.secures {l l' : Lease} (hw : w.Sound) (stores : w.Stores l l')
    (h : l.inMicros.Secures e since) : (w.add l').Secures e since := by
  refine ⟨⟨l', lease?_add w l', h.congr stores.spec⟩, fun c hc m v hcm hv hrev => ?_⟩
  obtain rfl := Option.some.inj ((lease?_add w l').symm.trans hv)
  subst hcm
  -- What is on its way was made about an earlier version, of another revision.
  obtain ⟨u, hmem, hmeta⟩ := hw.strays _ hc
  exact absurd (hmeta ▸ hrev.symm) (stores.fresh u hmem)

/-- Calls on their way that spare a replica leave it its lease. -/
theorem Secures.stray (h : w.Secures e since) {cs : List LeaseCall}
    (hcs : ∀ c ∈ cs, w.Spares e since c) : (w.stray cs).Secures e since := by
  refine ⟨h.lease, fun c hc => ?_⟩
  rcases List.mem_append.1 hc with old | new
  · exact h.strays c old
  · exact hcs c new

/-- A call that spares a replica leaves it its lease, whatever is answered. -/
theorem Answers.secures {a : LeaseStore.Answer c} (hw : w.Sound) (h : w.Secures e since)
    (hc : w.Spares e since c) (hans : w.Answers c a w') : w'.Secures e since := by
  cases hans with
  | find | read => exact h
  | create hnone _ =>
      obtain ⟨l, hl, -⟩ := h.lease
      rw [hnone] at hl
      cases hl
  | replace hv hrev stores => exact stores.secures hw (hc _ _ rfl hv hrev)
  | fail => exact h.stray fun c' hc' => List.mem_singleton.1 hc' ▸ hc

end LeaseSite

/-! ### The calls of a replica -/

/-- The calls of a replica that wants the lease. -/
inductive Elector.Claims (e : Elector) (w : LeaseSite) : LeaseCall → Prop
  | find : Claims e w .find
  | create {n : Duration} (h : n ≤ w.time) : Claims e w (.create (e.newLease n.instant))
  | replace {l n} (known : l ∈ w.versions) (h : n ≤ w.time)
      (free : e.isHeldByOther l (Duration.instant n) = false) :
      Claims e w (.replace (e.claimed l n.instant))

/-- The calls of a replica that renews its lease, from some time on. -/
inductive Elector.Renews (e : Elector) (since : Duration) (w : LeaseSite) : LeaseCall → Prop
  | read : Renews e since w .read
  | replace {l n} (known : l ∈ w.versions) (own : l.holder? = some e.holder) (h : since ≤ n) :
      Renews e since w (.replace (e.renewed l n.instant))

/-- The calls of a replica that gives its lease back. -/
inductive Elector.Releases (e : Elector) (w : LeaseSite) : LeaseCall → Prop
  | read : Releases e w .read
  | replace {l} (known : l ∈ w.versions) (own : l.holder? = some e.holder) :
      Releases e w (.replace (Elector.released l))

/-- The calls of a replica. -/
inductive Elector.Makes (e : Elector) (w : LeaseSite) (c : LeaseCall) : Prop
  | claims (h : e.Claims w c)
  | renews {start : Duration} (h : e.Renews start w c)
  | releases (h : e.Releases w c)

namespace Elector

variable {w : LeaseSite} {c : LeaseCall} {since start : Duration}

/-- A replica writes the lease only over a version that it has read. -/
theorem Makes.knows (h : e.Makes w c) : w.Knows c := by
  cases h with
  | claims h =>
      cases h with
      | replace known => exact ⟨_, known, rfl⟩
      | _ => trivial
  | renews h =>
      cases h with
      | replace known => exact ⟨_, known, rfl⟩
      | read => trivial
  | releases h =>
      cases h with
      | replace known => exact ⟨_, known, rfl⟩
      | read => trivial

/-- Within the term of a lease nobody else claims it. -/
theorem Claims.respects (hw : w.Sound) (hother : e'.holder ≠ e.holder) (h : e.Claims w c) :
    w.Respects e' c := by
  intro since hterm hsec l v hc hv hrev
  cases h with
  | find | create => cases hc
  | @replace l₀ n known hle free =>
      cases hc
      obtain ⟨u, hu, hsecures⟩ := hsec.lease
      obtain rfl : v = l₀ := hw.inForce known hv hrev
      obtain rfl : u = v := Option.some.inj (hu.symm.trans hv)
      -- Where the claim was found to be free, the term had passed already.
      have hlt := hsecures.heldByOther hother free
      exact absurd (Nat.le_trans hle hterm) (Nat.not_le.2 hlt)

/-- Only its holder works on a lease that it has read as its own. -/
theorem own_of_secures (hw : w.Sound) (hsec : w.Secures e' since) {l v : Lease}
    (known : l ∈ w.versions) (own : l.holder? = some e.holder) (hv : w.lease? = some v)
    (hrev : v.metadata.resourceVersion = l.metadata.resourceVersion) : e'.holder = e.holder := by
  obtain ⟨u, hu, hsecures⟩ := hsec.lease
  obtain rfl : v = l := hw.inForce known hv hrev
  obtain rfl : u = v := Option.some.inj (hu.symm.trans hv)
  exact Option.some.inj (hsecures.holder.symm.trans own)

theorem Renews.respects (hw : w.Sound) (hother : e'.holder ≠ e.holder)
    (h : e.Renews start w c) : w.Respects e' c := by
  intro since _ hsec l v hc hv hrev
  cases h with
  | read => cases hc
  | replace known own =>
      cases hc
      exact absurd (own_of_secures hw hsec known own hv hrev) hother

theorem Releases.respects (hw : w.Sound) (hother : e'.holder ≠ e.holder)
    (h : e.Releases w c) : w.Respects e' c := by
  intro since _ hsec l v hc hv hrev
  cases h with
  | read => cases hc
  | replace known own =>
      cases hc
      exact absurd (own_of_secures hw hsec known own hv hrev) hother

/-- A replica does not take the lease from another one within its term. -/
theorem Makes.respects (hw : w.Sound) (hother : e'.holder ≠ e.holder) (h : e.Makes w c) :
    w.Respects e' c := by
  cases h with
  | claims h => exact h.respects hw hother
  | renews h => exact h.respects hw hother
  | releases h => exact h.respects hw hother

/-- A replica that renews its lease does not lose it by that. -/
theorem Renews.spares (h : e.Renews start w c) (hle : since ≤ start.inMicros) :
    w.Spares e since c := by
  intro l v hc _ _
  cases h with
  | read => cases hc
  | replace known own hstart =>
      cases hc
      exact .renewed own (Nat.le_trans hle (Duration.inMicros_mono hstart))

end Elector

/-! ### What a replica relies on -/

namespace LeaseSite

variable {w w' w'' : LeaseSite} {c : LeaseCall}

/-- What others do, as far as a replica is concerned: time passes, there are new versions, but
within its term it keeps its lease. -/
structure Leads (e : Elector) (w w' : LeaseSite) : Prop where
  time : w.time ≤ w'.time
  versions : w.versions <+: w'.versions
  sound : w'.Sound
  secures : ∀ since, w'.time ≤ since + e.settings.term → w.Secures e since → w'.Secures e since

namespace Leads

theorem refl (hw : w.Sound) : Leads e w w :=
  ⟨Nat.le_refl _, List.prefix_rfl, hw, fun _ _ h => h⟩

theorem trans (h : Leads e w w') (h' : Leads e w' w'') : Leads e w w'' := by
  refine ⟨Nat.le_trans h.time h'.time, h.versions.trans h'.versions, h'.sound, ?_⟩
  intro since hterm hsec
  exact h'.secures since hterm (h.secures since (Nat.le_trans h'.time hterm) hsec)

/-- Time passes. -/
theorem tick (hw : w.Sound) {t : Duration} (h : w.time ≤ t) : Leads e w { w with time := t } :=
  ⟨h, List.prefix_rfl, ⟨hw.distinct, hw.strays⟩, fun _ _ hsec => ⟨hsec.lease, hsec.strays⟩⟩

/-- A call is answered. -/
theorem answers {a : LeaseStore.Answer c} (hw : w.Sound) (known : w.Knows c)
    (hc : w.Respects e c) (hans : w.Answers c a w') : Leads e w w' := by
  refine ⟨Nat.le_of_eq (congrArg _ hans.time.symm), hans.versions, hans.sound hw known, ?_⟩
  intro since hterm hsec
  rw [hans.time] at hterm
  exact hans.secures hw hsec (hc since hterm hsec)

/-- Calls go on their way. -/
theorem stray {cs : List LeaseCall} (hw : w.Sound) (known : ∀ c ∈ cs, w.Knows c)
    (hcs : ∀ c ∈ cs, w.Respects e c) : Leads e w (w.stray cs) := by
  refine ⟨Nat.le_refl _, List.prefix_rfl, hw.stray known, fun since hterm hsec => ?_⟩
  exact hsec.stray fun c hc => hcs c hc since hterm hsec

/-- A call that is on its way is carried out. -/
theorem settles (hw : w.Sound) (h : w.Settles w') : Leads e w w' := by
  obtain ⟨c, hc, a, hans⟩ := h
  exact answers hw (hw.strays c hc) (fun _ _ hsec => hsec.strays c hc) hans

end Leads

end LeaseSite

/-! ### What the programs do -/

namespace Elector

variable {w : LeaseSite}

/-- A replica relies on what others do, and makes calls of some kind. -/
def discipline (e : Elector) (permits : LeaseSite → LeaseCall → Prop) :
    Discipline LeaseStore LeaseSite where
  relies := LeaseSite.Leads e
  permits := permits
  relies_trans := LeaseSite.Leads.trans

/-- A replica that has taken the lease has it from the time on when it looked at the clock, in whole
microseconds. -/
def Acquired (e : Elector) (w : LeaseSite) (r : Bool × Instant) : Prop :=
  r.1 = true → ∀ n : Duration, r.2 = n.instant →
    n ≤ w.time ∧ (w.time ≤ n.inMicros + e.settings.term → w.Secures e n.inMicros)

/-- A replica that has renewed the lease has it from some time on. -/
def Renewed (e : Elector) (since : Duration) (w : LeaseSite) (r : Except LeaseError Unit) : Prop :=
  r = .ok () → w.time ≤ since + e.settings.term → w.Secures e since

theorem Acquired.stable ⦃w w' : LeaseSite⦄ ⦃r : Bool × Instant⦄ (hlead : LeaseSite.Leads e w w')
    (h : e.Acquired w r) : e.Acquired w' r := by
  intro htaken n hn
  obtain ⟨hle, hsec⟩ := h htaken n hn
  refine ⟨Nat.le_trans hle hlead.time, fun hterm => ?_⟩
  exact hlead.secures n.inMicros hterm (hsec (Nat.le_trans hlead.time hterm))

theorem Renewed.stable {since : Duration} ⦃w w' : LeaseSite⦄ ⦃r : Except LeaseError Unit⦄
    (hlead : LeaseSite.Leads e w w') (h : e.Renewed since w r) : e.Renewed since w' r := by
  intro hok hterm
  exact hlead.secures since hterm (h hok (Nat.le_trans hlead.time hterm))

/-- **A replica that wants the lease** only claims it, and has it in the end if it says so. -/
theorem acquire_obeys (hname : e.holder ≠ "") (attempts : Nat) (t : Instant) :
    ((e.acquire attempts).stamped t).Obeys LeaseSite.rules (e.discipline e.Claims) e.Acquired
      w := by
  induction attempts generalizing w t with
  | zero => exact fun htaken => nomatch htaken
  | succ more ih =>
      rw [acquire_succ]
      intro u now hu hnow
      obtain rfl : now = u.time.instant := hnow
      -- A claim that is stored makes the lease the replica's, from its look at the clock on.
      have acquired {x : LeaseSite} {l l' : Lease} (hx : LeaseSite.Leads e u x)
          (stores : x.Stores l l') (hl : l.inMicros.Secures e u.time.inMicros) :
          e.Acquired (x.add l') (true, u.time.instant) := by
        intro _ n hn
        obtain rfl := Duration.instant_inj hn
        exact ⟨hx.time, fun _ => stores.secures hx.sound hl⟩
      intro v hv
      refine ⟨.find, fun answer v' hans => ?_⟩
      cases hans with
      | fail => exact ih _
      | find =>
          cases hlease : v.lease? with
          | none =>
              intro x hx
              refine ⟨.create (Nat.le_trans hv.time hx.time), fun answer x' hans => ?_⟩
              cases hans with
              | create _ stores =>
                  exact acquired (hv.trans hx) stores (.claimed hname (Nat.le_refl _) rfl)
              | fail => exact ih _
          | some l =>
              cases hheld : e.isHeldByOther l u.time.instant with
              | true => simp only [hheld]; exact ih _
              | false =>
                  simp only [hheld]
                  intro x hx
                  have known := hx.versions.subset (LeaseSite.mem_of_lease? hlease)
                  refine ⟨.replace known (Nat.le_trans hv.time hx.time) hheld,
                    fun answer x' hans => ?_⟩
                  cases hans with
                  | replace _ _ stores =>
                      exact acquired (hv.trans hx) stores (.claimed hname (Nat.le_refl _) rfl)
                  | fail => exact ih _

/-- **A replica that renews its lease** only renews it, and has it in the end if it says so. -/
theorem renew_obeys {start : Duration} (hstart : start ≤ w.time) :
    e.renew.run.Obeys LeaseSite.rules (e.discipline (e.Renews start)) (e.Renewed start.inMicros)
      w := by
  rw [renew_run]
  intro u hu
  refine ⟨.read, fun answer u' hans => ?_⟩
  cases hans with
  | fail => exact fun hok => nomatch hok
  | @read l hlease =>
      by_cases own : Lease.holder? l = some e.holder
      · simp only [if_pos own]
        intro v now hv hnow
        obtain rfl : now = v.time.instant := hnow
        have hle : start ≤ v.time := Nat.le_trans hstart (Nat.le_trans hu.time hv.time)
        intro x hx
        refine ⟨.replace ((hv.versions.trans hx.versions).subset (LeaseSite.mem_of_lease? hlease))
          own hle, fun answer x' hans => ?_⟩
        cases hans with
        | replace _ _ stores =>
            exact fun _ _ => stores.secures hx.sound (.renewed own (Duration.inMicros_mono hle))
        | fail => exact fun hok => nomatch hok
      · simp only [if_neg own]
        exact fun hok => nomatch hok

/-- **A replica that gives its lease back** does nothing else. -/
theorem release_obeys : e.release.run.Obeys LeaseSite.rules (e.discipline e.Releases)
    (fun _ _ => True) w := by
  rw [release_run]
  intro u hu
  refine ⟨.read, fun answer u' hans => ?_⟩
  cases hans with
  | fail => trivial
  | @read l hlease =>
      by_cases own : Lease.holder? l = some e.holder
      · simp only [if_pos own]
        intro x hx
        refine ⟨.replace (hx.versions.subset (LeaseSite.mem_of_lease? hlease)) own, ?_⟩
        exact fun answer x' hans => trivial
      · simp only [if_neg own]
        trivial

end Elector

end NodeFencing
