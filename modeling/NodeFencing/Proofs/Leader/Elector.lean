import NodeFencing.Leader.Elector

/-!
# What a replica does, call by call

The programs of a replica, written out: each call that is made, and for each answer what
comes next.

## Main Definitions

* `Elector.outcome` — what comes of a write
* `Elector.contend` — what comes of an attempt to take the lease

## Main statements

* `Elector.tryAcquire_run`, `Elector.renew_run`, `Elector.release_run` — the programs
* `Elector.acquire_succ` — one attempt to take the lease and those that follow
-/

namespace NodeFencing.Elector

open Program

variable (e : Elector)

/-- What comes of a write. -/
def outcome : Except ApiError Lease → Except LeaseError Unit
  | .ok _ => .ok ()
  | .error err => .error (.api err)

/-- What comes of an attempt to take the lease: the replica has it, or goes on with more attempts
after a pause. -/
def contend (more : Nat) : Except ApiError Lease → Program LeaseStore Bool
  | .ok _ => .done true
  | .error _ => .pause e.settings.renewInterval (e.acquire more)

theorem tryAcquire_run : e.tryAcquire.run =
    .clock fun now =>
      call (I := LeaseStore) .find fun (answer : Except ApiError (Option Lease)) =>
        match answer with
        | .error err => .done (.error (.api err))
        | .ok none =>
          call (I := LeaseStore) (.create (e.newLease now)) fun answer => .done (outcome answer)
        | .ok (some l) =>
          if e.isHeldByOther l now then .done (.error (.held (l.holder?.getD "")))
          else
            call (I := LeaseStore) (.replace (e.claimed l now)) fun answer =>
              .done (outcome answer) := by
  refine congrArg clock (funext fun now => ?_)
  refine congrArg (call (I := LeaseStore) .find) (funext fun answer => ?_)
  match answer with
  | .error err => rfl
  | .ok none =>
    refine congrArg (call (I := LeaseStore) _) (funext fun answer => ?_)
    cases answer <;> rfl
  | .ok (some l) =>
    refine ite_congr rfl (fun _ => rfl) (fun _ => ?_)
    refine congrArg (call (I := LeaseStore) _) (funext fun answer => ?_)
    cases answer <;> rfl

theorem acquire_succ (more : Nat) : e.acquire (more + 1) =
    .clock fun now =>
      call (I := LeaseStore) .find fun (answer : Except ApiError (Option Lease)) =>
        match answer with
        | .error _ => .pause e.settings.renewInterval (e.acquire more)
        | .ok none => call (I := LeaseStore) (.create (e.newLease now)) (e.contend more)
        | .ok (some l) =>
          if e.isHeldByOther l now then .pause e.settings.renewInterval (e.acquire more)
          else call (I := LeaseStore) (.replace (e.claimed l now)) (e.contend more) := by
  rw [acquire, tryAcquire_run]
  refine congrArg clock (funext fun now => ?_)
  refine congrArg (call (I := LeaseStore) .find) (funext fun answer => ?_)
  match answer with
  | .error err => rfl
  | .ok none =>
    refine congrArg (call (I := LeaseStore) _) (funext fun answer => ?_)
    cases answer <;> rfl
  | .ok (some l) =>
    cases hheld : e.isHeldByOther l now with
    | true => simp only [hheld]; rfl
    | false =>
      simp only [hheld]
      refine congrArg (call (I := LeaseStore) _) (funext fun answer => ?_)
      cases answer <;> rfl

theorem renew_run : e.renew.run =
    call (I := LeaseStore) .read fun (answer : Except ApiError Lease) =>
      match answer with
      | .error err => .done (.error (.api err))
      | .ok l =>
        if l.holder? = some e.holder then
          .clock fun now =>
            call (I := LeaseStore) (.replace (e.renewed l now)) fun answer =>
              .done (outcome answer)
        else .done (.error (.takenOver (l.holder?.getD "nobody"))) := by
  refine congrArg (call (I := LeaseStore) .read) (funext fun answer => ?_)
  match answer with
  | .error err => rfl
  | .ok l =>
    by_cases own : l.holder? = some e.holder
    · refine (if_neg (not_not_intro own)).trans (Eq.trans ?_ (if_pos own).symm)
      refine congrArg clock (funext fun now => ?_)
      refine congrArg (call (I := LeaseStore) _) (funext fun answer => ?_)
      cases answer <;> rfl
    · exact (if_pos own).trans (if_neg own).symm

theorem release_run : e.release.run =
    call (I := LeaseStore) .read fun (answer : Except ApiError Lease) =>
      match answer with
      | .error err => .done (.error (.api err))
      | .ok l =>
        if l.holder? = some e.holder then
          call (I := LeaseStore) (.replace (released l)) fun answer => .done (outcome answer)
        else .done (.ok ()) := by
  refine congrArg (call (I := LeaseStore) .read) (funext fun answer => ?_)
  match answer with
  | .error err => rfl
  | .ok l =>
    refine ite_congr rfl (fun _ => ?_) (fun _ => rfl)
    refine congrArg (call (I := LeaseStore) _) (funext fun answer => ?_)
    cases answer <;> rfl

end NodeFencing.Elector
