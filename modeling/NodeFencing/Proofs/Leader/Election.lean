import NodeFencing.Proofs.Leader.Possession
import NodeFencing.Proofs.Leader.Renewal

/-!
# Replicas that contend for the lease

Any number of replicas, told apart by their names, work on one lease by one clock.  A
replica that is idle may want the lease; when it has got it, it leads, and makes attempts
to renew it; in the end it may give it back.  It may stop at any time, and then a call that
it waits for may still be carried out.

Calls and pauses take any time, and calls fail in any way.  What does not take any time is
what a leader does by itself: it begins its attempts in time, and it has ceased to lead by
its deadline.  How long it may take to get the lease, from the look at the clock to the
first moment of leading, is a parameter.

## Main Definitions

* `Duty` — what a replica does
* `Turn` — one step of one replica
* `Election`, `Election.Step`, `Election.Run` — replicas with their lease, and what happens
* `Duty.Fits`, `Election.Safe` — leaders have the lease beyond their deadlines

## Main statements

* `Turn.leads` — a step of one replica is what the others rely on
* `Turn.fits` — a step of a replica keeps it fit for the lease
* `Election.Safe.step`, `Election.Safe.run` — leaders have the lease in every run
* `Election.Safe.one_leader` — there is one leader at most
-/

namespace NodeFencing

/-! ### Steps -/

/-- What a replica does. -/
inductive Duty where
  | idle
  /-- It tries to take the lease. -/
  | contending (rest : Program LeaseStore (Bool × Instant))
  /-- It leads, and waits for its next attempt. -/
  | leading (r : Renewal)
  /-- It leads, and tries to renew the lease. -/
  | renewing (r : Renewal) (rest : Program LeaseStore (Except LeaseError Unit))
  /-- It does not lead any more, and gives the lease back. -/
  | resigning (rest : Program LeaseStore (Except LeaseError Unit))

namespace Duty

/-- The renewals of a replica that leads. -/
def renewal? : Duty → Option Renewal
  | leading r | renewing r _ => some r
  | _ => none

/-- The call that a replica waits for. -/
def pending? : Duty → Option LeaseCall
  | contending p => p.pending?
  | renewing _ p | resigning p => p.pending?
  | _ => none

/-- The time by which a replica that leads will have done something. -/
def limit? : Duty → Option Duration
  | leading r => some r.alarm
  | renewing r _ => some r.deadline
  | _ => none

theorem limit?_le {d : Duty} {r : Renewal} (h : d.renewal? = some r) :
    ∃ t, d.limit? = some t ∧ t ≤ r.deadline := by
  cases d with
  | leading r₀ =>
      obtain rfl := Option.some.inj h
      exact ⟨_, rfl, r₀.alarm_le_deadline⟩
  | renewing r₀ p =>
      obtain rfl := Option.some.inj h
      exact ⟨_, rfl, Nat.le_refl _⟩
  | _ => cases h

end Duty

/-- What a replica does behind an attempt. -/
def Tenure.duty : Tenure → Duty
  | leading r => .leading r
  | ended .. => .idle

/-- The call that a replica waits for goes on its way. -/
def LeaseSite.abandon (w : LeaseSite) (d : Duty) : LeaseSite :=
  w.stray d.pending?.toList

/-- One step of a replica that gets the lease, if at all, within some time from its look at the
clock.  A replica needs a name, for the empty one is nobody's. -/
inductive Turn (e : Elector) (lag : Duration) : LeaseSite × Duty → LeaseSite × Duty → Prop
  | contend {w} (attempts : Nat) (hname : e.holder ≠ "") :
      Turn e lag (w, .idle) (w, .contending ((e.acquire attempts).stamped w.time.instant))
  | claim {w p w' p'} (h : Program.Moves LeaseSite.rules (w, p) (w', p')) :
      Turn e lag (w, .contending p) (w', .contending p')
  | lead {w} {looked : Duration} (h : w.time ≤ looked + lag) :
      Turn e lag (w, .contending (.done (true, looked.instant)))
        (w, .leading (.start e.settings w.time))
  | attempt {w r} (h : r.due? = some w.time) :
      Turn e lag (w, .leading r) (w, .renewing r e.renew.run)
  | renew {w r p w' p'} (h : Program.Moves LeaseSite.rules (w, p) (w', p')) :
      Turn e lag (w, .renewing r p) (w', .renewing r p')
  | conclude {w r start result} (h : r.due? = some start) :
      Turn e lag (w, .renewing r (.done result))
        (w, (r.attempt (.ofResult (w.time - start) result)).duty)
  | resign {w d r} (h : d.renewal? = some r) :
      Turn e lag (w, d) (w.abandon d, .resigning e.release.run)
  | release {w p w' p'} (h : Program.Moves LeaseSite.rules (w, p) (w', p')) :
      Turn e lag (w, .resigning p) (w', .resigning p')
  | stop {w d} : Turn e lag (w, d) (w.abandon d, .idle)

/-- The replica of some name. -/
def Elector.named (e : Elector) (name : String) : Elector :=
  { e with holder := name }

/-- Replicas, told apart by their names, and their lease. -/
structure Election where
  site : LeaseSite
  replicas : String → Duty

namespace Election

/-- One replica has done something. -/
def put (c : Election) (a : String) (w : LeaseSite) (d : Duty) : Election where
  site := w
  replicas := Function.update c.replicas a d

@[simp] theorem put_site (c : Election) (a : String) (w : LeaseSite) (d : Duty) :
    (c.put a w d).site = w :=
  rfl

@[simp] theorem put_self (c : Election) (a : String) (w : LeaseSite) (d : Duty) :
    (c.put a w d).replicas a = d :=
  Function.update_self ..

theorem put_of_ne (c : Election) {a b : String} (hb : b ≠ a) (w : LeaseSite) (d : Duty) :
    (c.put a w d).replicas b = c.replicas b :=
  Function.update_of_ne hb ..

/-- The same at some later time. -/
def advance (c : Election) (t : Duration) : Election :=
  { c with site := { c.site with time := t } }

/-- One step of all that happens. -/
inductive Step (e : Elector) (lag : Duration) : Election → Election → Prop
  | tick {c t} (h : c.site.time ≤ t)
      (timely : ∀ a d, (c.replicas a).limit? = some d → t ≤ d) : Step e lag c (c.advance t)
  | settle {c w} (h : c.site.Settles w) : Step e lag c { c with site := w }
  | turn {c a w d} (h : Turn (e.named a) lag (c.site, c.replicas a) (w, d)) :
      Step e lag c (c.put a w d)

/-- Any number of steps. -/
abbrev Run (e : Elector) (lag : Duration) : Election → Election → Prop :=
  Relation.ReflTransGen (Step e lag)

/-- A replica leads: it was told that it has the lease, and its renewals have not ended. -/
def LedBy (c : Election) (a : String) : Prop :=
  ∃ r, (c.replicas a).renewal? = some r

/-- Nobody has begun to work.  The lease may have any history. -/
structure Outset (c : Election) : Prop where
  idle : ∀ a, c.replicas a = .idle
  sound : c.site.Sound

end Election

/-! ### What a replica is fit for -/

/-- A leader has the lease for a term that lasts beyond its deadline, at least from some time on
that is not behind a given one in whole microseconds. -/
structure Elector.Governs (e : Elector) (w : LeaseSite) (r : Renewal) (latest : Duration) :
    Prop where
  patience : r.patience = e.settings.renewDeadline
  renewed : r.lastRenewed ≤ r.time
  inTime : w.time ≤ r.deadline
  secures : ∃ since, since ≤ latest.inMicros ∧ r.deadline ≤ since + e.settings.term ∧
    w.Secures e since

/-- A replica goes on as its programs do, and if it leads it has the lease. -/
def Duty.Fits (e : Elector) (w : LeaseSite) : Duty → Prop
  | idle => True
  | contending p => p.Obeys LeaseSite.rules (e.discipline e.Claims) e.Acquired w
  | leading r => e.Governs w r w.time
  | renewing r p => ∃ start, r.due? = some start ∧ start ≤ w.time ∧ e.Governs w r start ∧
      p.Obeys LeaseSite.rules (e.discipline (e.Renews start)) (e.Renewed start.inMicros) w
  | resigning p => p.Obeys LeaseSite.rules (e.discipline e.Releases) (fun _ _ => True) w

variable {e e' : Elector} {w w' : LeaseSite} {d d' : Duty} {r : Renewal} {lag : Duration}

namespace Elector.Governs

variable {latest : Duration}

/-- What others do by the deadline does not end the term of a leader. -/
theorem mono (h : e.Governs w r latest) (hlead : LeaseSite.Leads e w w')
    (hle : w'.time ≤ r.deadline) : e.Governs w' r latest := by
  obtain ⟨since, hsince, hterm, hsec⟩ := h.secures
  refine ⟨h.patience, h.renewed, hle, since, hsince, hterm, ?_⟩
  exact hlead.secures since (Nat.le_trans hle hterm) hsec

theorem weaken {latest' : Duration} (h : e.Governs w r latest) (hle : latest ≤ latest') :
    e.Governs w r latest' := by
  obtain ⟨since, hsince, hterm⟩ := h.secures
  exact ⟨h.patience, h.renewed, h.inTime, since,
    Nat.le_trans hsince (Duration.inMicros_mono hle), hterm⟩

theorem holder? (h : e.Governs w r latest) : w.holder? = some e.holder := by
  obtain ⟨since, -, -, hsec⟩ := h.secures
  exact hsec.holder?

end Elector.Governs

namespace Duty.Fits

theorem governs (h : d.Fits e w) (hr : d.renewal? = some r) :
    ∃ latest, e.Governs w r latest := by
  cases d with
  | leading r₀ =>
      obtain rfl := Option.some.inj hr
      exact ⟨w.time, h⟩
  | renewing r₀ p =>
      obtain rfl := Option.some.inj hr
      obtain ⟨start, -, -, hgov, -⟩ := h
      exact ⟨start, hgov⟩
  | _ => cases hr

/-- A replica stays fit for the lease while others do what it relies on, as long as a leader is not
beyond its deadline. -/
theorem mono (h : d.Fits e w) (hlead : LeaseSite.Leads e w w')
    (hle : ∀ r, d.renewal? = some r → w'.time ≤ r.deadline) : d.Fits e w' := by
  cases d with
  | idle => trivial
  | contending p => exact Program.Obeys.mono Elector.Acquired.stable hlead h
  | leading r₀ => exact (Elector.Governs.mono h hlead (hle r₀ rfl)).weaken hlead.time
  | renewing r₀ p =>
      obtain ⟨start, hdue, hstart, hgov, hobeys⟩ := h
      exact ⟨start, hdue, Nat.le_trans hstart hlead.time, hgov.mono hlead (hle r₀ rfl),
        hobeys.mono Elector.Renewed.stable hlead⟩
  | resigning p => exact Program.Obeys.mono (fun _ _ _ _ _ => trivial) hlead h

/-- The call that a replica waits for is one that replicas make. -/
theorem makes (hw : w.Sound) (h : d.Fits e w) {c : LeaseCall} (hc : d.pending? = some c) :
    e.Makes w c := by
  have hrefl : LeaseSite.Leads e w w := .refl hw
  cases d with
  | contending p => exact .claims (Program.Obeys.permits_pending hrefl h hc)
  | renewing r₀ p =>
      obtain ⟨start, -, -, -, hobeys⟩ := h
      exact .renews (hobeys.permits_pending hrefl hc)
  | resigning p => exact .releases (Program.Obeys.permits_pending hrefl h hc)
  | _ => cases hc

end Duty.Fits

/-! ### What a step does -/

/-- A program acts on a site only by the call that it waits for. -/
theorem Program.Moves.site {α : Type} {p p' : Program LeaseStore α}
    (h : Program.Moves LeaseSite.rules (w, p) (w', p')) :
    w' = w ∨ ∃ c a, p.pending? = some c ∧ w.Answers c a w' := by
  cases h with
  | call hans => exact .inr ⟨_, _, rfl, hans⟩
  | pause | clock => exact .inl rfl

namespace Turn

/-- A step of a replica leaves the site as it is, or the call that it waits for is answered or goes
on its way. -/
theorem site (h : Turn e lag (w, d) (w', d')) :
    w' = w ∨ (∃ c a, d.pending? = some c ∧ w.Answers c a w') ∨ w' = w.abandon d := by
  cases h with
  | claim h | renew h | release h => exact h.site.imp_right .inl
  | resign | stop => exact .inr (.inr rfl)
  | _ => exact .inl rfl

/-- A step of a replica takes no time. -/
theorem time (h : Turn e lag (w, d) (w', d')) : w'.time = w.time := by
  rcases h.site with rfl | ⟨c, a, -, hans⟩ | rfl
  · rfl
  · exact hans.time
  · rfl

theorem sound (hw : w.Sound) (hd : d.Fits e w) (h : Turn e lag (w, d) (w', d')) : w'.Sound := by
  rcases h.site with rfl | ⟨c, a, hc, hans⟩ | rfl
  · exact hw
  · exact hans.sound hw (hd.makes hw hc).knows
  · exact hw.stray fun c hc => (hd.makes hw (Option.mem_toList.1 hc)).knows

/-- **A step of one replica** is what the others rely on. -/
theorem leads (hw : w.Sound) (hd : d.Fits e w) (hother : e'.holder ≠ e.holder)
    (h : Turn e lag (w, d) (w', d')) : LeaseSite.Leads e' w w' := by
  rcases h.site with rfl | ⟨c, a, hc, hans⟩ | rfl
  · exact .refl hw
  · have hmakes := hd.makes hw hc
    exact .answers hw hmakes.knows (hmakes.respects hw hother) hans
  · have hmakes (c : LeaseCall) (hc : c ∈ d.pending?.toList) : e.Makes w c :=
      hd.makes hw (Option.mem_toList.1 hc)
    exact .stray hw (fun c hc => (hmakes c hc).knows) fun c hc => (hmakes c hc).respects hw hother

/-- A step either leaves the lease alone or leaves the replica the renewals that it has. -/
theorem lease_or_renewal (h : Turn e lag (w, d) (w', d')) :
    w'.lease? = w.lease? ∨ d'.renewal? = d.renewal? := by
  cases h with
  | claim | renew | release => exact .inr rfl
  | _ => exact .inl rfl

/-- What is written of a look at the clock leaves a term beyond the deadline that counts from some
time behind the look. -/
theorem deadline_le (short : lag + e.settings.renewDeadline + .beyondMicros ≤ e.settings.term)
    {t looked : Duration} (hle : t ≤ looked + lag) :
    t + e.settings.renewDeadline ≤ looked.inMicros + e.settings.term := by
  have written : looked ≤ looked.inMicros + .beyondMicros := Duration.le_inMicros_add
  simp only [Duration.le_iff, Duration.nanos_add] at short hle written ⊢
  omega

/-- A replica that gets the lease in time has it beyond its first deadline. -/
theorem governs_start
    (short : lag + e.settings.renewDeadline + .beyondMicros ≤ e.settings.term)
    {looked : Duration} (hle : w.time ≤ looked + lag)
    (hd : e.Acquired w (true, looked.instant)) :
    e.Governs w (.start e.settings w.time) w.time := by
  obtain ⟨hlooked, hsec⟩ := hd rfl looked rfl
  have hterm := deadline_le short hle
  exact ⟨rfl, Nat.le_refl _, Nat.le_add_right _ _, looked.inMicros,
    Duration.inMicros_mono hlooked, hterm, hsec (Nat.le_trans (Nat.le_add_right _ _) hterm)⟩

/-- A leader that renews its lease in time has it beyond its new deadline; if it fails, the old one
counts. -/
theorem governs_attempt
    (short : lag + e.settings.renewDeadline + .beyondMicros ≤ e.settings.term)
    {start : Duration} (hdue : r.due? = some start) (hstart : start ≤ w.time)
    (hgov : e.Governs w r start) {result : Except LeaseError Unit}
    (hd : e.Renewed start.inMicros w result) {r' : Renewal}
    (h : r.attempt (.ofResult (w.time - start) result) = .leading r') :
    e.Governs w r' w.time := by
  have htime : start + (w.time - start) = w.time := by
    apply Duration.ext
    simp only [Duration.le_iff] at hstart
    simp only [Duration.nanos_add, Duration.nanos_sub]
    omega
  have hlast : r.lastRenewed ≤ start := by
    obtain ⟨rfl, -⟩ := Renewal.due?_eq_some.1 hdue
    exact Nat.le_trans hgov.renewed r.time_le_wake
  have hlatest := Duration.inMicros_mono hstart
  rcases Renewal.attempt_leading hdue h with ⟨rfl, rfl⟩ | rfl
  · -- The lease and the new deadline both count from the beginning of the attempt.
    have hin : w.time ≤ start + r.patience :=
      Nat.le_trans hgov.inTime (Nat.add_le_add_right hlast _)
    have hterm : start + r.patience ≤ start.inMicros + e.settings.term := by
      rw [hgov.patience]
      exact deadline_le short (Nat.le_add_right _ _)
    rw [htime]
    exact ⟨hgov.patience, hstart, hin, start.inMicros, hlatest, hterm,
      hd rfl (Nat.le_trans hin hterm)⟩
  · obtain ⟨since, hsince, hterm⟩ := hgov.secures
    rw [htime]
    exact ⟨hgov.patience, Nat.le_trans hlast hstart, hgov.inTime, since,
      Nat.le_trans hsince hlatest, hterm⟩

/-- A leader does not lose its lease by renewing it. -/
theorem governs_renew {start : Duration} {p p' : Program LeaseStore (Except LeaseError Unit)}
    (hw : w.Sound) (hgov : e.Governs w r start)
    (hobeys : p.Obeys LeaseSite.rules (e.discipline (e.Renews start)) (e.Renewed start.inMicros) w)
    (h : Program.Moves LeaseSite.rules (w, p) (w', p')) : e.Governs w' r start := by
  rcases h.site with rfl | ⟨c, a, hc, hans⟩
  · exact hgov
  · have hrenews : e.Renews start w c :=
      hobeys.permits_pending (LeaseSite.Leads.refl hw) hc
    obtain ⟨since, hsince, hterm, hsec⟩ := hgov.secures
    refine ⟨hgov.patience, hgov.renewed, hans.time ▸ hgov.inTime, since, hsince, hterm, ?_⟩
    exact hans.secures hw hsec (hrenews.spares hsince)

/-- **A step of a replica** keeps it fit for the lease, if it gets the lease soon enough. -/
theorem fits (short : lag + e.settings.renewDeadline + .beyondMicros ≤ e.settings.term)
    (hw : w.Sound) (hd : d.Fits e w) (h : Turn e lag (w, d) (w', d')) : d'.Fits e w' := by
  have hrefl : LeaseSite.Leads e w w := .refl hw
  have htime := h.time
  cases h with
  | contend attempts hname => exact e.acquire_obeys hname attempts _
  | claim h => exact Program.Obeys.moves hrefl hd h
  | lead hle => exact governs_start short hle hd
  | attempt hdue => exact ⟨w.time, hdue, Nat.le_refl _, hd, e.renew_obeys (Nat.le_refl _)⟩
  | renew h =>
      obtain ⟨start, hdue, hstart, hgov, hobeys⟩ := hd
      refine ⟨start, hdue, ?_, governs_renew hw hgov hobeys h, hobeys.moves hrefl h⟩
      exact htime ▸ hstart
  | @conclude _ r start result hdue =>
      obtain ⟨start', hdue', hstart, hgov, hd⟩ := hd
      obtain rfl : start' = start := Option.some.inj (hdue'.symm.trans hdue)
      cases hresult : r.attempt (.ofResult (w.time - start') result) with
      | leading r' => exact governs_attempt short hdue hstart hgov hd hresult
      | ended cause t => trivial
  | resign => exact e.release_obeys
  | release h => exact Program.Obeys.moves hrefl hd h
  | stop => trivial

end Turn

/-! ### All replicas -/

namespace Election

/-- Every replica is fit for the lease. -/
structure Safe (e : Elector) (c : Election) : Prop where
  sound : c.site.Sound
  fits : ∀ a, (c.replicas a).Fits (e.named a) c.site

variable {c c' : Election}

theorem Outset.safe (h : c.Outset) : c.Safe e :=
  ⟨h.sound, fun a => by rw [h.idle a]; trivial⟩

namespace Safe

/-- A leader has the lease. -/
theorem holder? {a : String} (h : c.Safe e) (hled : c.LedBy a) : c.site.holder? = some a := by
  obtain ⟨r, hr⟩ := hled
  obtain ⟨latest, hgov⟩ := (h.fits a).governs hr
  exact hgov.holder?

/-- **There is one leader at most.** -/
theorem one_leader {a b : String} (h : c.Safe e) (ha : c.LedBy a) (hb : c.LedBy b) : a = b :=
  Option.some.inj ((h.holder? ha).symm.trans (h.holder? hb))

/-- The site changes as every replica relies on, and no leader is beyond its deadline. -/
theorem around {w : LeaseSite} (h : c.Safe e) (hw : w.Sound)
    (hlead : ∀ a, LeaseSite.Leads (e.named a) c.site w)
    (hle : ∀ a r, (c.replicas a).renewal? = some r → w.time ≤ r.deadline) :
    Safe e { c with site := w } :=
  ⟨hw, fun a => (h.fits a).mono (hlead a) (hle a)⟩

theorem inTime {a : String} (h : c.Safe e) (hr : (c.replicas a).renewal? = some r) :
    c.site.time ≤ r.deadline := by
  obtain ⟨latest, hgov⟩ := (h.fits a).governs hr
  exact hgov.inTime

/-- **One step of all** keeps every replica fit for the lease. -/
theorem step (short : lag + e.settings.renewDeadline + .beyondMicros ≤ e.settings.term)
    (h : c.Safe e) (hs : Step e lag c c') : c'.Safe e := by
  cases hs with
  | tick hle timely =>
      refine h.around ⟨h.sound.distinct, h.sound.strays⟩ (fun a => .tick h.sound hle) ?_
      intro a r hr
      obtain ⟨limit, hlimit, hdeadline⟩ := Duty.limit?_le hr
      exact Nat.le_trans (timely a limit hlimit) hdeadline
  | settle hw =>
      have hlead (a : String) := LeaseSite.Leads.settles (e := e.named a) h.sound hw
      exact h.around (hlead "").sound hlead fun a r hr => hw.time ▸ h.inTime hr
  | @turn a w d ht =>
      refine ⟨ht.sound h.sound (h.fits a), fun b => ?_⟩
      -- The one that acts goes on as its program does; for the others this is interference.
      by_cases hb : b = a
      · subst hb
        rw [put_self]
        exact ht.fits short h.sound (h.fits b)
      · rw [put_of_ne c hb]
        have hlead : LeaseSite.Leads (e.named b) c.site w := ht.leads h.sound (h.fits a) hb
        exact (h.fits b).mono hlead fun r hr => ht.time ▸ h.inTime hr

/-- **A whole run** keeps every replica fit for the lease. -/
theorem run (short : lag + e.settings.renewDeadline + .beyondMicros ≤ e.settings.term)
    (h : c.Safe e) (hr : Run e lag c c') : c'.Safe e := by
  induction hr with
  | refl => exact h
  | tail _ hs ih => exact ih.step short hs

end Safe

end Election

end NodeFencing
