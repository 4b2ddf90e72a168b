import NodeFencing.Proofs.Leader.Election
import NodeFencing.Settings.Validate

/-!
# One leader at a time

A leader measures its deadline from the moment when it was told that it has the lease,
the others measure the term of the lease from the look at the clock that is written in it.
So the time that a replica needs to get the lease counts against the difference of the
two, and what a lease cannot express is missing from it: seconds beyond the greatest
number that it can tell, and nanoseconds beyond the microseconds of the time that is
written in it.

If that time, the deadline and these nanoseconds together fit into the term, then no
replica gets the lease while another one leads, whatever happens.  If they do not, there
is a run in which one does: the first leader has looked at the clock just before a new
microsecond and got the lease so late that the second may see it as expired before the
first one's deadline.

## Main Definitions

* `Election.TakesOver` — a replica gets the lease
* `Election.Exclusive` — no replica gets the lease while another one leads

## Main statements

* `Election.exclusive_of_fits` — when this is so
* `Election.not_exclusive` — a run in which it is not, in all other cases
* `Election.exists_not_exclusive` — no settings make up for an unlimited time
* `Election.exclusive_iff_fits` — when exactly there is one leader at a time
-/

namespace NodeFencing

namespace Election

variable {e : Elector} {lag : Duration}

/-- A replica gets the lease. -/
def TakesOver (c c' : Election) (b : String) : Prop :=
  c.site.holder? ≠ some b ∧ c'.site.holder? = some b

/-- In no run does a replica get the lease while another one leads. -/
def Exclusive (e : Elector) (lag : Duration) : Prop :=
  ∀ ⦃c₀ c c' : Election⦄ ⦃a b : String⦄, c₀.Outset → Run e lag c₀ c → Step e lag c c' →
    c.TakesOver c' b → c.LedBy a → a = b

/-! ### Leaders that have the lease long enough -/

/-- While the lease changes its holder, nobody ceases to lead. -/
theorem Step.ledBy {c c' : Election} {a : String} (hs : Step e lag c c')
    (hchange : c'.site.holder? ≠ c.site.holder?) (hled : c.LedBy a) : c'.LedBy a := by
  cases hs with
  | tick => exact absurd rfl hchange
  | settle => exact hled
  | @turn x w d ht =>
      by_cases ha : a = x
      · subst ha
        rcases ht.lease_or_renewal with hlease | hrenewal
        · exact absurd (congrArg (·.bind Lease.holder?) hlease) hchange
        · simpa [LedBy, hrenewal] using hled
      · simpa [LedBy, put_of_ne c ha] using hled

/-- If replicas get the lease soon enough, they lead one at a time. -/
theorem exclusive_of_fits
    (short : lag + e.settings.renewDeadline + .beyondMicros ≤ e.settings.term) :
    Exclusive e lag := by
  intro c₀ c c' a b houtset hrun hs htakes hled
  have hchange : c'.site.holder? ≠ c.site.holder? := by
    rw [htakes.2]
    exact fun heq => htakes.1 heq.symm
  have hsafe : c'.Safe e := (houtset.safe.run short hrun).step short hs
  have hholder := hsafe.holder? (hs.ledBy hchange hled)
  exact Option.some.inj (hholder.symm.trans htakes.2)

/-! ### Leaders that do not -/

/-- A run goes on with what one replica does, while the others do nothing. -/
theorem Run.turns {c₀ c : Election} {a : String} {w : LeaseSite} {d : Duty} (h₀ : Run e lag c₀ c)
    (h : Relation.ReflTransGen (Turn (e.named a) lag) (c.site, c.replicas a) (w, d)) :
    Run e lag c₀ (c.put a w d) := by
  generalize hend : (w, d) = last at h
  induction h generalizing w d with
  | refl =>
      obtain ⟨rfl, rfl⟩ := Prod.mk.inj hend
      rwa [put, Function.update_eq_self]
  | @tail b _ _ hlast ih =>
      obtain ⟨w₁, d₁⟩ := b
      subst hend
      have hstep : Step e lag (c.put a w₁ d₁) ((c.put a w₁ d₁).put a w d) :=
        .turn (by rw [put_site, put_self]; exact hlast)
      have hput : (c.put a w₁ d₁).put a w d = c.put a w d := by simp [put]
      exact hput ▸ (ih rfl).tail hstep

/-- A replica that finds no lease is about to create it. -/
theorem turns_create {w : LeaseSite} (hname : e.holder ≠ "") (h : w.lease? = none) :
    Relation.ReflTransGen (Turn e lag) (w, .idle) (w, .contending
      (.call (I := LeaseStore) (.create (e.newLease w.time.instant)) fun answer =>
        (e.contend 0 answer).stamped w.time.instant)) := by
  refine .head (.contend 1 hname) ?_
  rw [Elector.acquire_succ]
  refine .head (.claim (.clock rfl)) ?_
  refine .head (.claim (.call .find)) ?_
  rw [h]
  exact .refl

/-- A replica that finds a lease which nobody else holds takes it, while the others do nothing. -/
theorem Run.replaces {c₀ c : Election} {b : String} {l l' : Lease} (h₀ : Run e lag c₀ c)
    (hidle : c.replicas b = .idle) (hname : b ≠ "") (hl : c.site.lease? = some l)
    (hfree : (e.named b).isHeldByOther l c.site.time.instant = false)
    (stores : c.site.Stores ((e.named b).claimed l c.site.time.instant) l') :
    ∃ c₁ c₂, Run e lag c₀ c₁ ∧ Step e lag c₁ c₂ ∧ c₁.site = c.site ∧
      (∀ a, a ≠ b → c₁.replicas a = c.replicas a) ∧ c₂.site = c.site.add l' := by
  let next (answer : Except ApiError Lease) :=
    ((e.named b).contend 0 answer).stamped c.site.time.instant
  have ready : Relation.ReflTransGen (Turn (e.named b) lag) (c.site, c.replicas b)
      (c.site, .contending (.call (I := LeaseStore)
        (.replace ((e.named b).claimed l c.site.time.instant)) next)) := by
    rw [hidle]
    refine .head (.contend 1 hname) ?_
    rw [Elector.acquire_succ]
    refine .head (.claim (.clock rfl)) ?_
    refine .head (.claim (.call .find)) ?_
    rw [hl]
    simp only [hfree]
    exact .refl
  have answered : Program.Moves LeaseSite.rules (c.site, .call (I := LeaseStore)
      (.replace ((e.named b).claimed l c.site.time.instant)) next)
      (c.site.add l', next (.ok l')) :=
    .call (LeaseSite.Answers.replace hl rfl stores)
  refine ⟨_, _, Run.turns h₀ ready, .turn (a := b) (w := c.site.add l')
    (d := .contending (next (.ok l'))) ?_, rfl, fun a ha => put_of_ne c ha .., rfl⟩
  rw [put_site, put_self]
  exact .claim answered

/-- Replicas at the beginning of time, just before a new microsecond. -/
def dawn : Election where
  site := { time := .beyondMicros }
  replicas _ := .idle

theorem dawn_outset : dawn.Outset :=
  ⟨fun _ => rfl, fun _ hv _ _ _ => (nomatch hv), fun _ hc => (nomatch hc)⟩

/-- The lease that the first replica creates.  It tells the beginning of time. -/
def firstLease (e : Elector) : Lease :=
  ((e.named "a").newLease (Duration.instant .beyondMicros)).stored "1"

/-- The first replica has created the lease, and is told so only after some time.  It leads. -/
def firstLed (e : Elector) (lag : Duration) : Election :=
  let c := (dawn.put "a" (dawn.site.add (firstLease e))
    (.contending (.done (true, Duration.instant .beyondMicros)))).advance (.beyondMicros + lag)
  c.put "a" c.site (.renewing (.start e.settings (.beyondMicros + lag)) (e.named "a").renew.run)

/-- Time passes while no replica leads, except one that has not come to its next act. -/
theorem Run.advances {c₀ c : Election} {a : String} {w : LeaseSite} {d : Duty} {t : Duration}
    (h : Run e lag c₀ (c.put a w d)) (hidle : ∀ b, b ≠ a → c.replicas b = .idle)
    (hle : w.time ≤ t) (timely : ∀ limit, d.limit? = some limit → t ≤ limit) :
    Run e lag c₀ ((c.put a w d).advance t) := by
  refine h.tail (.tick hle fun b limit hlimit => ?_)
  by_cases hb : b = a
  · subst hb
    rw [put_self] at hlimit
    exact timely limit hlimit
  · rw [put_of_ne c hb, hidle b hb] at hlimit
    cases hlimit

theorem firstLed_run (hdeadline : 0 < e.settings.renewDeadline.nanos) :
    Run e lag dawn (firstLed e lag) := by
  have hname : (e.named "a").holder ≠ "" := show "a" ≠ "" by decide
  have stores : dawn.site.Stores ((e.named "a").newLease (Duration.instant .beyondMicros))
      (firstLease e) :=
    LeaseSite.stores_stored _ fun v hv => (nomatch hv)
  have created : Relation.ReflTransGen (Turn (e.named "a") lag) (dawn.site, dawn.replicas "a")
      (dawn.site.add (firstLease e),
        .contending (.done (true, Duration.instant .beyondMicros))) := by
    refine (turns_create (w := dawn.site) hname rfl).trans ?_
    refine .head (.claim (.call (LeaseSite.Answers.create rfl stores))) ?_
    exact .refl
  have told := Run.advances (t := .beyondMicros + lag) (Run.turns (c := dawn) .refl created)
    (fun _ _ => rfl) (Nat.le_add_right _ _) (fun _ h => nomatch h)
  refine Run.turns told (.tail (.single ?_) (.attempt (Renewal.due?_start hdeadline _)))
  rw [advance, put_self]
  exact .lead (Nat.le_refl _)

/-- The second replica sees the lease of the first one as expired behind its term. -/
theorem firstLease_free {now : Duration} (h : e.settings.term < now) :
    (e.named "b").isHeldByOther (firstLease e) now.instant = false := by
  obtain ⟨spec, hspec, hrenewed, hduration⟩ : ∃ spec, (firstLease e).spec = some spec ∧
      spec.renewed = some (Duration.instant {}) ∧
      spec.durationSeconds = some (leaseSeconds e.settings.leaseDurationSeconds) :=
    ⟨_, rfl, rfl, rfl⟩
  have hexp : (firstLease e).expired now.instant = true := by
    rw [Lease.expired, hspec]
    refine (LeaseSpec.expired_iff hrenewed hduration).2 ?_
    simpa [Duration.lt_iff] using h
  simp [Elector.isHeldByOther, hexp]

/-- **A replica that gets the lease too late** may still lead when another one gets it. -/
theorem not_exclusive (hdeadline : 0 < e.settings.renewDeadline.nanos)
    (long : e.settings.term < lag + e.settings.renewDeadline + .beyondMicros) :
    ¬ Exclusive e lag := by
  intro hexclusive
  -- Behind the term, but not behind the deadline, the second replica looks at the clock.
  obtain ⟨now, hlag, hterm, hnow⟩ : ∃ now : Duration, .beyondMicros + lag ≤ now ∧
      e.settings.term < now ∧ now ≤ .beyondMicros + lag + e.settings.renewDeadline := by
    simp only [Duration.lt_iff, Duration.le_iff, Duration.nanos_add] at long ⊢
    exact ⟨⟨max (Duration.beyondMicros.nanos + lag.nanos) (e.settings.term.nanos + 1)⟩,
      by simp; omega⟩
  have waited : Run e lag dawn ((firstLed e lag).advance now) := by
    refine Run.advances (firstLed_run hdeadline) (fun b hb => put_of_ne dawn hb ..) hlag ?_
    intro limit hlimit
    obtain rfl := Option.some.inj hlimit
    exact hnow
  have stores : ((firstLed e lag).advance now).site.Stores
      ((e.named "b").claimed (firstLease e) now.instant)
      (((e.named "b").claimed (firstLease e) now.instant).stored "2") := by
    refine LeaseSite.stores_stored _ fun v hv => ?_
    obtain rfl := List.mem_singleton.1 hv
    exact fun h => absurd (Option.some.inj h) (by decide)
  -- It replaces the lease at once, while the first one still waits for its attempt to end.
  obtain ⟨c₁, c₂, hrun, hstep, hsite₁, hothers, hsite₂⟩ :=
    Run.replaces (b := "b") waited rfl (by decide) rfl (firstLease_free hterm) stores
  have heq := hexclusive (a := "a") (b := "b") dawn_outset hrun hstep ⟨?_, ?_⟩ ?_
  · exact absurd heq (by decide)
  · rw [hsite₁]
    exact fun h => absurd (Option.some.inj h) (show "a" ≠ "b" by decide)
  · rw [hsite₂]
    rfl
  · refine ⟨.start e.settings (.beyondMicros + lag), ?_⟩
    rw [hothers "a" (by decide)]
    rfl

/-- Whatever the settings are, a replica may get the lease so late that another one gets it while it
leads. -/
theorem exists_not_exclusive (hdeadline : 0 < e.settings.renewDeadline.nanos) :
    ∃ lag, ¬ Exclusive e lag :=
  ⟨e.settings.term, not_exclusive hdeadline
    (Nat.lt_of_lt_of_le (Nat.lt_add_of_pos_right hdeadline) (Nat.le_add_right _ _))⟩

/-! ### Usable settings -/

theorem renewDeadline_pos {s : LeaderSettings} (h : s.ordered = true) :
    0 < s.renewDeadline.nanos := by
  simp only [LeaderSettings.ordered, Bool.and_eq_true, decide_eq_true_eq] at h
  obtain ⟨⟨hinterval, hdeadline⟩, -⟩ := h
  exact Nat.mul_pos (Nat.lt_trans hinterval hdeadline) (by decide)

/-- **One leader at a time**: with usable settings, no replica gets the lease while another one
leads, in any run in which nobody gets the lease later than some time after its look at the clock,
if and only if that time, the deadline of a leader, and what is not written of the time of that look
together do not go beyond the term that a lease can tell. -/
theorem exclusive_iff_fits (hordered : e.settings.ordered = true) (lag : Duration) :
    Exclusive e lag ↔ lag + e.settings.renewDeadline + .beyondMicros ≤ e.settings.term := by
  constructor
  · intro hexclusive
    refine Nat.not_lt.1 fun long => ?_
    exact not_exclusive (renewDeadline_pos hordered) long hexclusive
  · exact exclusive_of_fits

/-- With the settings that are the default a replica has almost five seconds to get the lease.  Five
seconds are too long. -/
theorem exclusive_iff_fits_default :
    ({} : LeaderSettings).ordered = true ∧
      Exclusive { inNamespace := "fencing", holder := "" }
        (Duration.ofSeconds 5 - .beyondMicros) ∧
      ¬ Exclusive { inNamespace := "fencing", holder := "" } (Duration.ofSeconds 5) := by
  have fits := exclusive_iff_fits (e := { inNamespace := "fencing", holder := "" }) (by decide)
  exact ⟨by decide, (fits _).2 (by decide), fun h => absurd ((fits _).1 h) (by decide)⟩

/-- Settings with a duration that a lease cannot tell. -/
def longSettings : LeaderSettings where
  leaseDurationSeconds := 5000000000
  renewDeadlineSeconds := 4000000000

/-- With such settings a leader is not safe however soon it got the lease. -/
theorem long_not_exclusive :
    longSettings.ordered = true ∧
      ¬ Exclusive { inNamespace := "fencing", holder := "", settings := longSettings } {} :=
  ⟨by decide, not_exclusive (by decide) (by decide)⟩

end Election

end NodeFencing
