import NodeFencing.Proofs.Leader.Elector
import NodeFencing.Proofs.Leader.Renewal

/-!
# How long a leader leads

A leader attempts again and again to renew its lease, until its deadline.  How the attempts go
is left open here: a call may be answered in any way, after any time, or never.  Where a tick
falls on the deadline, either of the two may come first.

Timers go off on time, and nobody stops the leader.

## Main Definitions

* `Round` — what a leader meets when it is to renew its lease once more
* `Elector.attempt` — how the attempt goes then
* `Renewal.begins?`, `Renewal.proceed` — make an attempt, also if it begins at the deadline
* `Leadership` — a leader and all that it meets
* `Leadership.lastRenewed`, `Leadership.deadline` — how far the attempts that succeed carry it
* `Leadership.StopsInTime` — it leads until its deadline, or until it finds another holder

## Main statements

* `Elector.attempt_eq` — an attempt, call by call
* `Renewal.proceed_eq_attempt` — the order of a tick and the deadline matters only in a tie
* `Leadership.onSchedule` — what holds of the leader before every round
* `Leadership.stops_in_time` — every leader stops in time
-/

namespace NodeFencing

/-! ### One attempt -/

/-- What a leader meets when it is to renew its lease once more. -/
structure Round where
  /-- Whether the tick comes first if it falls on the deadline. -/
  tickFirst : Bool
  /-- The time that is written into the lease. -/
  clock : Instant
  /-- What a call is answered, and how long that takes.  It may never be answered. -/
  reply? : (c : LeaseCall) → Option (LeaseStore.Answer c × Duration)

namespace Round

variable (x : Round)

/-- The answer to a call, and the time that has passed then. -/
def answer? (c : LeaseStore.Call) (elapsed : Duration) :
    Option (LeaseStore.Answer c) × Duration :=
  match x.reply? c with
  | none => (none, elapsed)
  | some (answer, took) => (some answer, elapsed + took)

/-- Hold a conversation. -/
def hold {α : Type} (p : Program LeaseStore α) (elapsed : Duration) :
    Program.Stop LeaseStore α × Duration :=
  p.advance x.answer? (fun _ => x.clock) elapsed

variable {x} {α : Type} {c : LeaseStore.Call} {next : LeaseStore.Answer c → Program LeaseStore α}
  {elapsed time : Duration}

theorem hold_unanswered (h : x.reply? c = none) :
    x.hold (.call c next) elapsed = (.stuck, elapsed) := by
  rw [hold, Program.advance, answer?, h]

theorem hold_answered {answer : LeaseStore.Answer c} {took : Duration}
    (h : x.reply? c = some (answer, took)) (htime : elapsed + took = time) :
    x.hold (.call c next) elapsed = x.hold (next answer) time := by
  rw [hold, Program.advance, answer?, h, ← htime]
  rfl

end Round

/-- How an attempt goes, by where its conversation is interrupted, and after what time. -/
def Attempt.ofStop : Program.Stop LeaseStore (Except LeaseError Unit) × Duration → Attempt
  | (.finished result, took) => .ofResult took result
  | (.paused _ _, _) => .unanswered
  | (.stuck, _) => .unanswered

namespace Elector

variable (e : Elector) (x : Round)

/-- How an attempt to renew the lease goes. -/
def attempt : Attempt :=
  .ofStop (x.hold e.renew.run {})

/-- **An attempt, call by call**: the lease is read, and written if it is still one's own. -/
theorem attempt_eq : e.attempt x =
    match (x.reply? .read : Option (Except ApiError Lease × Duration)) with
    | none => .unanswered
    | some (.error _, took) => .failed took
    | some (.ok l, took) =>
      if l.holder? = some e.holder then
        match (x.reply? (.replace (e.renewed l x.clock)) :
            Option (Except ApiError Lease × Duration)) with
        | none => .unanswered
        | some (.error _, more) => .failed (took + more)
        | some (.ok _, more) => .renewed (took + more)
      else .takenOver (l.holder?.getD "nobody") took := by
  have hstart (took : Duration) : ({} : Duration) + took = took := Duration.ext (Nat.zero_add _)
  rw [attempt, renew_run]
  match hread : x.reply? .read with
  | none => exact congrArg Attempt.ofStop (Round.hold_unanswered hread)
  | some (.error err, took) =>
    exact congrArg Attempt.ofStop (Round.hold_answered hread (hstart took))
  | some (.ok l, took) =>
    refine (congrArg Attempt.ofStop (Round.hold_answered hread (hstart took))).trans ?_
    by_cases own : l.holder? = some e.holder
    · simp only [own, if_true]
      match hwrite : x.reply? (.replace (e.renewed l x.clock)) with
      | none => exact congrArg Attempt.ofStop (Round.hold_unanswered hwrite)
      | some (.error err, more) =>
        exact congrArg Attempt.ofStop (Round.hold_answered hwrite rfl)
      | some (.ok written, more) =>
        exact congrArg Attempt.ofStop (Round.hold_answered hwrite rfl)
    · simp only [own, if_false]
      rfl

/-- An attempt finds the lease taken over exactly if it reads of another holder, or of none. -/
theorem attempt_eq_takenOver_iff {holder : String} {took : Duration} :
    e.attempt x = .takenOver holder took ↔
      ∃ l : Lease, x.reply? .read = some (.ok l, took) ∧ l.holder? ≠ some e.holder ∧
        holder = l.holder?.getD "nobody" := by
  rw [attempt_eq]
  match hread : x.reply? .read with
  | none => simp
  | some (.error err, _) =>
    constructor
    · rintro ⟨⟩
    · rintro ⟨l, ⟨⟩, -⟩
  | some (.ok l, _) =>
    by_cases own : l.holder? = some e.holder
    · simp only [own, if_true]
      constructor
      · intro h
        split at h <;> cases h
      · rintro ⟨l', hl', hother, -⟩
        cases hl'
        exact absurd own hother
    · simp only [own, if_false]
      constructor
      · rintro ⟨⟩
        exact ⟨l, rfl, own, rfl⟩
      · rintro ⟨l', hl', -, rfl⟩
        cases hl'
        rfl

end Elector
/-! ### One round -/

namespace Renewal

variable {r r' : Renewal} {tickFirst : Bool} {start took time : Duration} {a : Attempt}

/-- When the next attempt begins, if any does.  At the deadline it begins only if the tick comes
first. -/
def begins? (r : Renewal) (tickFirst : Bool) : Option Duration :=
  if tickFirst ∧ r.wake = r.deadline then some r.wake else r.due?

/-- What becomes of a leader by an attempt that has begun. -/
def undergo (r : Renewal) (start : Duration) : Attempt → Tenure
  | .renewed took =>
    if r.deadline < start + took then r.overdue
    else .leading { r.resume (start + took) with lastRenewed := start }
  | .takenOver holder took =>
    if r.deadline < start + took then r.overdue
    else .ended (.takenOver holder) (start + took)
  | .failed took =>
    if r.deadline ≤ start + took then r.overdue else .leading (r.resume (start + took))
  | .unanswered => r.overdue

/-- What becomes of a leader in a round. -/
def proceed (r : Renewal) (tickFirst : Bool) (a : Attempt) : Tenure :=
  match r.begins? tickFirst with
  | none => r.overdue
  | some start => r.undergo start a

/-- The order of a tick and the deadline matters only if they fall together; then the deadline is
taken to come first otherwise. -/
theorem proceed_eq_attempt (h : tickFirst = false ∨ r.wake ≠ r.deadline) :
    r.proceed tickFirst a = r.attempt a := by
  have htie : ¬ (tickFirst ∧ r.wake = r.deadline) := by
    rintro ⟨htick, hwake⟩
    rcases h with hfalse | hne
    · exact absurd (hfalse.symm.trans htick) Bool.false_ne_true
    · exact hne hwake
  rw [proceed, begins?, if_neg htie, attempt]
  cases r.due? with
  | none => rfl
  | some start => cases a <;> rfl

/-- An attempt would begin at its tick, or when the last one has ended if that is later. -/
theorem eq_wake_iff : start = r.wake ↔
    r.nextTick ≤ start ∧ r.time ≤ start ∧ (start = r.nextTick ∨ start = r.time) := by
  have hext (d d' : Duration) : d = d' ↔ d.nanos = d'.nanos :=
    ⟨congrArg Duration.nanos, Duration.ext⟩
  rw [wake]
  split <;> simp only [hext, Duration.le_iff, Duration.lt_iff] at * <;> omega

/-- It begins only by the deadline, and just at the deadline only if the tick comes first. -/
theorem begins_eq_some_iff : r.begins? tickFirst = some start ↔
    start = r.wake ∧ (start < r.deadline ∨ start = r.deadline ∧ tickFirst = true) := by
  rw [begins?]
  split
  case isTrue htie =>
    constructor
    · rintro ⟨⟩
      exact ⟨rfl, .inr ⟨htie.2, htie.1⟩⟩
    · rintro ⟨rfl, -⟩
      rfl
  case isFalse htie =>
    rw [due?_eq_some]
    refine and_congr_right fun hwake => (or_iff_left ?_).symm
    rintro ⟨hdeadline, htick⟩
    exact htie ⟨htick, hwake ▸ hdeadline⟩

/-- An attempt begins no earlier than its tick or the end of the last one, and by the deadline. -/
theorem le_of_begins (h : r.begins? tickFirst = some start) :
    r.nextTick ≤ start ∧ r.time ≤ start ∧ start ≤ r.deadline := by
  obtain ⟨hwake, hdeadline⟩ := begins_eq_some_iff.1 h
  obtain ⟨htick, htime, -⟩ := eq_wake_iff.1 hwake
  refine ⟨htick, htime, ?_⟩
  rcases hdeadline with hlt | ⟨heq, -⟩
  · exact Nat.le_of_lt hlt
  · exact Nat.le_of_eq (congrArg Duration.nanos heq)

/-- A leader goes on exactly behind an attempt that succeeds by the deadline, or fails before it for
another reason than a new holder. -/
theorem undergo_eq_leading_iff : r.undergo start a = .leading r' ↔
    (∃ took, a = .renewed took ∧ start + took ≤ r.deadline ∧
      r' = { r.resume (start + took) with lastRenewed := start }) ∨
    (∃ took, a = .failed took ∧ start + took < r.deadline ∧ r' = r.resume (start + took)) := by
  cases a <;> grind [undergo, overdue, Duration.le_iff, Duration.lt_iff]

/-- It leaves the lease to another holder exactly behind an attempt that finds one in time. -/
theorem undergo_eq_takenOver_iff {holder : String} :
    r.undergo start a = .ended (.takenOver holder) time ↔
      ∃ took, a = .takenOver holder took ∧ time = start + took ∧ time ≤ r.deadline := by
  cases a <;> grind [undergo, overdue, Duration.le_iff, Duration.lt_iff]

/-- Otherwise its end is at the deadline. -/
theorem undergo_ended {cause : LeaseError} (h : r.undergo start a = .ended cause time) :
    ((∃ holder, cause = .takenOver holder) ∧ time ≤ r.deadline) ∨
      cause = .overdue r.patience ∧ time = r.deadline := by
  cases a <;> grind [undergo, overdue, Duration.le_iff, Duration.lt_iff]

end Renewal

/-! ### All rounds -/

/-- A leader and all that it meets. -/
structure Leadership where
  elector : Elector
  /-- When it has taken the lease. -/
  since : Duration
  rounds : Nat → Round

namespace Leadership

/-- How the attempt of a round goes. -/
def attempt (w : Leadership) (k : Nat) : Attempt :=
  w.elector.attempt (w.rounds k)

/-- What has become of the leader before a round. -/
def tenure (w : Leadership) : Nat → Tenure
  | 0 => .leading (.start w.elector.settings w.since)
  | k + 1 =>
    match w.tenure k with
    | .leading r => r.proceed (w.rounds k).tickFirst (w.attempt k)
    | .ended cause time => .ended cause time

/-- When the attempt of a round begins, if any does. -/
def begins? (w : Leadership) (k : Nat) : Option Duration :=
  match w.tenure k with
  | .leading r => r.begins? (w.rounds k).tickFirst
  | .ended _ _ => none

/-- The time from one tick to the next. -/
def interval (w : Leadership) : Duration :=
  w.elector.settings.renewInterval

/-- When the timer goes off for a round. -/
def tick (w : Leadership) (k : Nat) : Duration where
  nanos := w.since.nanos + k * w.interval.nanos

/-- How long the leader leads without success. -/
def patience (w : Leadership) : Duration :=
  w.elector.settings.renewDeadline

/-- When the last attempt before a round began that has succeeded in time; at first, when the lease
was taken. -/
def lastRenewed (w : Leadership) : Nat → Duration
  | 0 => w.since
  | k + 1 =>
    match w.begins? k, w.attempt k with
    | some start, .renewed took =>
      if start + took ≤ w.lastRenewed k + w.patience then start else w.lastRenewed k
    | _, _ => w.lastRenewed k

/-- When the leader ceases to lead, unless it succeeds once more. -/
def deadline (w : Leadership) (k : Nat) : Duration :=
  w.lastRenewed k + w.patience

/-- The leader leads until its deadline, or until it finds another holder. -/
structure StopsInTime (w : Leadership) : Prop where
  /-- As long as it goes on, the deadline is not over. -/
  leading : ∀ {k r}, w.tenure k = .leading r → r.time ≤ w.deadline k
  /-- An attempt begins at its tick, or when the last one has ended if that is later; but only by
  the deadline, and just at the deadline only if the tick comes first. -/
  begins : ∀ {k r start}, w.tenure k = .leading r →
    (w.begins? k = some start ↔
      (w.tick k ≤ start ∧ r.time ≤ start ∧ (start = w.tick k ∨ start = r.time)) ∧
        (start < w.deadline k ∨ start = w.deadline k ∧ (w.rounds k).tickFirst = true))
  /-- It ends by the deadline, and before it only because another holder was found. -/
  ended : ∀ {k cause time}, w.tenure k = .ended cause time →
    ((∃ holder, cause = .takenOver holder) ∧ time ≤ w.deadline k) ∨
      cause = .overdue w.patience ∧ time = w.deadline k
  /-- It ends for that reason exactly behind an attempt that reads in time of another holder, or of
  none. -/
  takenOver : ∀ {k r holder time}, w.tenure k = .leading r →
    (w.tenure (k + 1) = .ended (.takenOver holder) time ↔
      ∃ start l took, w.begins? k = some start ∧
        (w.rounds k).reply? .read = some (.ok l, took) ∧ l.holder? ≠ some w.elector.holder ∧
        holder = l.holder?.getD "nobody" ∧ time = start + took ∧ time ≤ w.deadline k)
  /-- It goes on exactly behind an attempt that succeeds by the deadline, or fails before it for
  another reason. -/
  goesOn : ∀ {k r time}, w.tenure k = .leading r →
    ((∃ r', w.tenure (k + 1) = .leading r' ∧ r'.time = time) ↔
      ∃ start took, w.begins? k = some start ∧ time = start + took ∧
        (w.attempt k = .renewed took ∧ time ≤ w.deadline k ∨
          w.attempt k = .failed took ∧ time < w.deadline k))
  /-- Without any more success it does end. -/
  ends : ∀ {k}, (∀ j, k ≤ j → w.lastRenewed j = w.lastRenewed k) →
    ∃ n cause time, w.tenure n = .ended cause time ∧ time ≤ w.deadline k

/-- What holds of a leader before a round. -/
structure OnSchedule (w : Leadership) (k : Nat) (r : Renewal) : Prop where
  interval : r.interval = w.interval
  deadline : r.deadline = w.deadline k
  patience : r.patience = w.patience
  /-- Ticks are never left out. -/
  nextTick : r.nextTick = w.tick k
  /-- The last round has not ended before its tick. -/
  nextTick_le : r.nextTick ≤ r.time + r.interval
  lastRenewed_le : r.lastRenewed ≤ r.time
  time_le : r.time ≤ r.deadline

variable {w : Leadership} {k : Nat} {r r' : Renewal} {start took : Duration}

theorem tenure_succ (h : w.tenure k = .leading r) :
    w.tenure (k + 1) = match w.begins? k with
      | none => r.overdue
      | some start => r.undergo start (w.attempt k) := by
  simp only [tenure, begins?, h]
  rfl

/-- A leader that goes on behind a round has made an attempt in it. -/
theorem exists_of_tenure_succ (h : w.tenure (k + 1) = .leading r') : ∃ r start,
    w.tenure k = .leading r ∧ w.begins? k = some start ∧
      r.undergo start (w.attempt k) = .leading r' := by
  cases hk : w.tenure k with
  | ended cause time =>
    rw [tenure, hk] at h
    cases h
  | leading r =>
    rw [tenure_succ hk] at h
    cases hbegins : w.begins? k with
    | none =>
      rw [hbegins] at h
      cases h
    | some start =>
      rw [hbegins] at h
      exact ⟨r, start, rfl, rfl, h⟩

theorem begins_eq (hk : w.tenure k = .leading r) :
    w.begins? k = r.begins? (w.rounds k).tickFirst := by
  rw [begins?, hk]

/-- An attempt that succeeds in time counts. -/
theorem lastRenewed_renewed (hbegins : w.begins? k = some start) (h : w.attempt k = .renewed took)
    (hle : start + took ≤ w.deadline k) : w.lastRenewed (k + 1) = start := by
  simp only [lastRenewed, hbegins, h]
  exact if_pos hle

/-- Nothing else that happens in a round counts. -/
theorem lastRenewed_otherwise (h : ∀ start took, w.begins? k = some start →
      w.attempt k = .renewed took → ¬ start + took ≤ w.deadline k) :
    w.lastRenewed (k + 1) = w.lastRenewed k := by
  rw [lastRenewed]
  split
  case h_1 start took hbegins hattempt => exact if_neg (h start took hbegins hattempt)
  case h_2 => rfl

/-- **The schedule is kept** from one round to the next. -/
theorem OnSchedule.step (hs : w.OnSchedule k r) (hk : w.tenure k = .leading r)
    (hbegins : w.begins? k = some start) (h : r.undergo start (w.attempt k) = .leading r') :
    w.OnSchedule (k + 1) r' := by
  obtain ⟨htick, htime, -⟩ := Renewal.le_of_begins (begins_eq hk ▸ hbegins)
  have hlast : r.lastRenewed ≤ start := Nat.le_trans hs.lastRenewed_le htime
  have hend (took : Duration) : start ≤ start + took := Nat.le_add_right _ _
  have hlate (took : Duration) : r.nextTick + r.interval ≤ start + took + r.interval :=
    Nat.add_le_add_right (Nat.le_trans htick (hend took)) _
  have hnext : r.nextTick + r.interval = w.tick (k + 1) := by
    rw [hs.nextTick, hs.interval]
    refine Duration.ext ?_
    rw [Duration.nanos_add, tick, tick, Nat.add_one_mul, Nat.add_assoc]
  obtain ⟨took, hattempt, hle, rfl⟩ | ⟨took, hattempt, hlt, rfl⟩ :=
    Renewal.undergo_eq_leading_iff.1 h
  · -- The deadline moves: the attempt began no earlier than the last one that has succeeded.
    have hlast' : w.lastRenewed (k + 1) = start :=
      lastRenewed_renewed hbegins hattempt (hs.deadline ▸ hle)
    have hdeadline : start + r.patience = w.deadline (k + 1) := by
      rw [Leadership.deadline, hlast', hs.patience]
    have hmoves : r.deadline ≤ start + r.patience := Nat.add_le_add_right hlast _
    exact ⟨hs.interval, hdeadline, hs.patience, hnext, hlate took, hend took,
      Nat.le_trans hle hmoves⟩
  · have hlast' : w.lastRenewed (k + 1) = w.lastRenewed k :=
      lastRenewed_otherwise fun _ _ _ hrenewed => nomatch hattempt.symm.trans hrenewed
    have hdeadline : r.deadline = w.deadline (k + 1) := by
      rw [Leadership.deadline, hlast']
      exact hs.deadline
    exact ⟨hs.interval, hdeadline, hs.patience, hnext, hlate took,
      Nat.le_trans hlast (hend took), Nat.le_of_lt hlt⟩

/-- **A leader that goes on is on schedule** before every round. -/
theorem onSchedule (h : w.tenure k = .leading r) : w.OnSchedule k r := by
  induction k generalizing r with
  | zero =>
    cases h
    have hfirst : w.since = w.tick 0 := Duration.ext (by rw [tick, Nat.zero_mul, Nat.add_zero])
    exact ⟨rfl, rfl, rfl, hfirst, Nat.le_add_right _ _, Nat.le_refl _, Nat.le_add_right _ _⟩
  | succ k ih =>
    obtain ⟨r₀, start, hk, hbegins, hr⟩ := exists_of_tenure_succ h
    exact (ih hk).step hk hbegins hr

theorem exists_of_begins (h : w.begins? k = some start) : ∃ r, w.tenure k = .leading r := by
  rw [begins?] at h
  split at h
  case h_1 r hk => exact ⟨r, hk⟩
  case h_2 => cases h

/-- A round with which the leader ends does not move its deadline. -/
theorem deadline_of_ended {cause : LeaseError} {time : Duration}
    (h : w.tenure (k + 1) = .ended cause time) : w.deadline (k + 1) = w.deadline k := by
  have hlast : w.lastRenewed (k + 1) = w.lastRenewed k := by
    refine lastRenewed_otherwise fun start took hbegins hattempt hle => ?_
    obtain ⟨r, hk⟩ := exists_of_begins hbegins
    have hdeadline := (onSchedule hk).deadline
    have hgoes := Renewal.undergo_eq_leading_iff.2
      (.inl ⟨took, hattempt, hdeadline ▸ hle, rfl⟩)
    rw [tenure_succ hk, hbegins] at h
    exact nomatch hgoes.symm.trans h
  rw [deadline, deadline, hlast]

/-- **A leader ends by its deadline**, and before it only if another has the lease. -/
theorem time_of_ended {cause : LeaseError} {time : Duration} (h : w.tenure k = .ended cause time) :
    ((∃ holder, cause = .takenOver holder) ∧ time ≤ w.deadline k) ∨
      cause = .overdue w.patience ∧ time = w.deadline k := by
  induction k with
  | zero => cases h
  | succ k ih =>
    rw [deadline_of_ended h]
    cases hk : w.tenure k with
    | ended cause' time' =>
      rw [tenure, hk] at h
      exact ih (hk.trans h)
    | leading r =>
      obtain ⟨-, hdeadline, hpatience, -⟩ := onSchedule hk
      rw [tenure_succ hk] at h
      rw [← hdeadline, ← hpatience]
      cases hbegins : w.begins? k with
      | none =>
        rw [hbegins] at h
        cases h
        exact .inr ⟨rfl, rfl⟩
      | some start =>
        rw [hbegins] at h
        exact Renewal.undergo_ended h

/-- **Without any more success a leader ends**: otherwise its ticks would go beyond the deadline. -/
theorem exists_ended (hinterval : 0 < w.elector.settings.renewIntervalSeconds)
    (h : ∀ j, k ≤ j → w.lastRenewed j = w.lastRenewed k) :
    ∃ n cause time, w.tenure n = .ended cause time ∧ time ≤ w.deadline k := by
  let n := k + (w.deadline k).nanos + 2
  have hdeadline : w.deadline n = w.deadline k := by
    rw [deadline, h n (by omega), deadline]
  cases hn : w.tenure n with
  | ended cause time =>
    refine ⟨n, cause, time, hn, hdeadline ▸ ?_⟩
    rcases time_of_ended hn with ⟨-, hle⟩ | ⟨-, heq⟩
    · exact hle
    · exact Nat.le_of_eq (congrArg Duration.nanos heq)
  | leading r =>
    have hs := onSchedule hn
    have hpos : 0 < w.interval.nanos := Nat.mul_pos hinterval (by decide)
    have htick : n * w.interval.nanos ≤ (w.deadline k).nanos + w.interval.nanos := by
      have hle := hs.nextTick_le
      have htime := hs.time_le
      rw [hs.nextTick, hs.interval] at hle
      rw [hs.deadline, hdeadline] at htime
      simp only [Duration.le_iff, Duration.nanos_add, tick] at hle htime
      omega
    have hmany : ((w.deadline k).nanos + 2) * w.interval.nanos ≤ n * w.interval.nanos :=
      Nat.mul_le_mul_right _ (by omega)
    have hfew := Nat.le_mul_of_pos_right (w.deadline k).nanos hpos
    rw [Nat.add_mul] at hmany
    exact absurd htick (by omega)

/-- **Every leader stops in time**: it leads until its deadline, or until it finds another holder.
A timer needs some time between two ticks. -/
theorem stops_in_time (w : Leadership)
    (hinterval : 0 < w.elector.settings.renewIntervalSeconds) : w.StopsInTime where
  leading hk := (onSchedule hk).deadline ▸ (onSchedule hk).time_le
  begins hk := by
    rw [begins_eq hk, Renewal.begins_eq_some_iff, Renewal.eq_wake_iff, (onSchedule hk).nextTick,
      (onSchedule hk).deadline]
  ended := time_of_ended
  takenOver hk := by
    rw [tenure_succ hk, ← (onSchedule hk).deadline]
    cases hbegins : w.begins? _ with
    | none => simp [Renewal.overdue]
    | some start =>
      refine Renewal.undergo_eq_takenOver_iff.trans ⟨?_, ?_⟩
      · rintro ⟨took, hattempt, htime, hle⟩
        obtain ⟨l, hread, hother, hholder⟩ := (Elector.attempt_eq_takenOver_iff _ _).1 hattempt
        exact ⟨start, l, took, rfl, hread, hother, hholder, htime, hle⟩
      · rintro ⟨_, l, took, ⟨⟩, hread, hother, hholder, htime, hle⟩
        exact ⟨took, (Elector.attempt_eq_takenOver_iff _ _).2 ⟨l, hread, hother, hholder⟩, htime,
          hle⟩
  goesOn hk := by
    rw [tenure_succ hk, ← (onSchedule hk).deadline]
    cases hbegins : w.begins? _ with
    | none => simp [Renewal.overdue]
    | some start =>
      simp only [Renewal.undergo_eq_leading_iff]
      constructor
      · rintro ⟨_, ⟨took, hattempt, hle, rfl⟩ | ⟨took, hattempt, hlt, rfl⟩, rfl⟩
        · exact ⟨start, took, rfl, rfl, .inl ⟨hattempt, hle⟩⟩
        · exact ⟨start, took, rfl, rfl, .inr ⟨hattempt, hlt⟩⟩
      · rintro ⟨_, took, ⟨⟩, rfl, ⟨hattempt, hle⟩ | ⟨hattempt, hlt⟩⟩
        · exact ⟨_, .inl ⟨took, hattempt, hle, rfl⟩, rfl⟩
        · exact ⟨_, .inr ⟨took, hattempt, hlt, rfl⟩, rfl⟩
  ends := exists_ended hinterval

/-- A replica fails to renew its lease, succeeds in the next round, and gets no answer from then on:
it ends ten seconds after the second attempt has begun. -/
theorem stops_in_time_unanswered :
    let e : Elector := { inNamespace := "default", holder := "a" }
    let own : Lease := { spec := some { holder := some "a" } }
    let second : Duration := .ofSeconds 1
    let rounds : Nat → Round
      | 0 => ⟨false, ⟨1, 0⟩, fun _ => some (.error (.refused 503), second)⟩
      | 1 => ⟨false, ⟨3, 0⟩, fun
        | .find => none
        | .read => some (.ok own, second)
        | .create _ => none
        | .replace l => some (.ok l, second)⟩
      | _ => ⟨false, ⟨5, 0⟩, fun _ => none⟩
    let w : Leadership := ⟨e, {}, rounds⟩
    0 < e.settings.renewIntervalSeconds ∧ w.lastRenewed 2 = .ofSeconds 2 ∧
      w.tenure 3 = .ended (.overdue (.ofSeconds 10)) (.ofSeconds 12) ∧ w.StopsInTime :=
  ⟨by decide, rfl, rfl, stops_in_time _ (by decide)⟩

end Leadership

end NodeFencing
