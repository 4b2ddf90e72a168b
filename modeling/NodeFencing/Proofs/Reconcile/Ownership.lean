import NodeFencing.Proofs.Escalation
import NodeFencing.Proofs.Method.Job
import NodeFencing.Proofs.Reconcile.Guide
import NodeFencing.Proofs.Registry

/-!
# By whose job a request succeeds

A request ends with success when a job of its method has succeeded.  The jobs of a method
are found by the names of the request and of the method, which their labels hold; the
request that owns a job is not looked at.  So the success may be that of a job which is
left from another request of the same name, and it is certain to be its own only where
no other such job has succeeded, or an own one has as well.

## Main Definitions

* `Job.OwnedBy` — a job that a request owns
* `Status.FencedBy` — a status that says by which method the node is fenced
* `Earns` — a request ends with success by a method only by an own job

## Main statements

* `ownershipGuide` — passes keep the contract
* `earns_iff` — for which jobs success is earned
* `leftover_unearned` — a request that succeeds by the job of another one
-/

namespace NodeFencing

/-- A job that is owned by the object of an identity. -/
def Job.OwnedBy (j : Job) (uid : Option String) : Prop :=
  ∃ o ∈ j.metadata.owners.getD [], uid = some o.uid

/-- A job of a method of a request has succeeded. -/
def HasSucceeded (jobs : List Job) (request method : String) : Prop :=
  ∃ j ∈ jobs, j.isFor request method = true ∧ j.state = .succeeded

/-- An own job of a method of a request has succeeded. -/
def HasOwnSuccess (jobs : List Job) (request : String) (uid : Option String) (method : String) :
    Prop :=
  ∃ j ∈ jobs, j.isFor request method = true ∧ j.OwnedBy uid ∧ j.state = .succeeded

namespace Status

/-- A status that ends a request, as its log says, because the node is fenced by a method. -/
structure FencedBy (s : Status) (method : String) : Prop where
  complete : s.complete = true
  result : s.result = some .success
  message : ∃ update, s.updates.getLast? = some update ∧
    update.message = message .success ("fenced by " ++ method)

theorem message_success (method : String) :
    message .success ("fenced by " ++ method) = "Success" ++ ": " ++ ("fenced by " ++ method) := by
  have nonempty : ("fenced by " ++ method).isEmpty = false := by simp [String.isEmpty]
  simp [message, nonempty, Result.name]

/-- The method by which a request was ended is the one of which its log says so. -/
theorem FencedBy.method_eq {s : Status} {t : Instant} {method method' : String}
    (h : (s.finalize t .success ("fenced by " ++ method)).FencedBy method') :
    method = method' := by
  obtain ⟨update, hlast, hmessage⟩ := h.message
  simp only [finalize, record, List.getLast?_concat, Option.some.injEq] at hlast
  subst hlast
  simp only [message_success] at hmessage
  exact (String.append_right_inj _).mp ((String.append_right_inj _).mp hmessage)

theorem FencedBy.not_open {s : Status} {method : String} (h : s.FencedBy method) :
    ¬ s.complete = false := by
  simp [h.complete]

end Status

/-- On its way from one ledger to another, a program comes to the point at which it ends a request
with success by a method. -/
def Succeeds (l l' : Ledger) (p : Program RequestStore (Except TaskError Outcome))
    (method : String) : Prop :=
  ∃ request revision s next,
    Relation.ReflTransGen (Program.Moves (Ledger.rules (fun _ => True) fun _ _ => False)) (l, p)
      (l', .call (.patchStatus request revision s) next) ∧ s.FencedBy method

/-- Whatever a pass meets on a ledger with some jobs, it ends the request of an identity with
success by a method only when an own job of this method has succeeded. -/
def Earns (jobs : List Job) (name : String) (uid : Option String) (method : String) : Prop :=
  ∀ (l l' : Ledger) (r : Request) (settings : Settings) (now : Instant),
    l.registry.Sound → l.jobs = jobs → r ∈ l.revisions →
    (∀ r ∈ l.revisions, r.name = name ∧ r.metadata.uid = uid) →
    Succeeds l l' (reconcile settings r now).run method → HasOwnSuccess l'.jobs name uid method

/-! ### Where success is earned -/

/-- The jobs of a ledger are those that were there at first, and others that run. -/
structure Ledger.Adds (jobs : List Job) (name : String) (l : Ledger) : Prop where
  kept : jobs ⊆ l.jobs
  added : ∀ j ∈ l.jobs, j ∈ jobs ∨ j.state = .running
  named : ∀ r ∈ l.revisions, r.name = name

/-- Under this contract only jobs that have not yet begun are created, and a request is ended with
success by a method only when an own job has succeeded. -/
def ownershipContract (jobs : List Job) (name : String) (uid : Option String) (method : String) :
    Contract RequestStore Ledger where
  holds := Ledger.Adds jobs name
  evolves _ _ := True
  permits _
    | .createJob job => job.status = none
    | .patchStatus _ _ s => s.FencedBy method → HasOwnSuccess jobs name uid method
    | _ => True
  reports := Ledger.Tells
  evolves_refl _ := trivial
  evolves_trans _ _ := trivial
  permits_mono _ h := h

variable {jobs : List Job} {name : String} {uid : Option String} {method : String}

/-- Passes keep the contract if the success of any job is the success of an own one. -/
def ownershipGuide (settings : Settings)
    (own : HasSucceeded jobs name method → HasOwnSuccess jobs name uid method) :
    Guide (ownershipContract jobs name uid method) settings where
  knows l r := l.Adds jobs name ∧ r.name = name
  chosen r _ l s := l.Adds jobs name ∧ r.name = name ∧ s.complete = false
  seen _ _ _ s state := s.complete = false ∧
    (s.activeMethod = some method → state = .succeeded → HasOwnSuccess jobs name uid method)
  knows_mono := fun hlead ⟨_, hr⟩ => ⟨hlead.holds, hr⟩
  chosen_mono := fun hlead ⟨_, hr, hopen⟩ => ⟨hlead.holds, hr, hopen⟩
  seen_mono _ h := h
  reads c hc := by
    cases c with
    | createJob => cases hc
    | patchStatus => cases hc
    | _ => trivial
  latest hl hrep := ⟨hl, hl.named _ (Ledger.mem_of_latest? (hrep _ rfl))⟩
  rejects _ _ _ h := nomatch h.result
  chooses := fun {_ _ r _ _} ⟨hl, hr⟩ hopen _ => by
    refine ⟨hl, hr, ?_⟩
    rw [Status.complete_choosing]
    exact r.isComplete_eq.symm.trans hopen
  idle := fun ⟨_, _, hopen⟩ hidle => ⟨hopen, fun hactive => nomatch hidle.symm.trans hactive⟩
  looks := fun {l r _ s m found t} ⟨hl, hr, hopen⟩ hactive hrep => by
    refine ⟨(s.complete_observing _ _ _).trans hopen, fun hsame hstate => ?_⟩
    rw [s.activeMethod_observing, hactive] at hsame
    obtain rfl : m = method := Option.some.inj hsame
    obtain rfl : found = l.jobs.filter (·.isFor r.name m) := hrep found rfl
    -- A job that has succeeded is not one of those that were created meanwhile.
    obtain ⟨j, hj, hsucceeded⟩ := methodState_succeeded_iff.mp hstate
    obtain ⟨hj, hfor⟩ := List.mem_filter.mp hj
    refine own ⟨j, (hl.added j hj).resolve_right ?_, hr ▸ hfor, hsucceeded⟩
    exact fun hrunning => nomatch hsucceeded.symm.trans hrunning
  keeps := fun ⟨hopen, _⟩ h => absurd hopen h.not_open
  completes := fun ⟨_, hseen⟩ hnext h => by
    obtain ⟨hactive, hstate⟩ := Config.nextStep_complete hnext
    exact hseen (h.method_eq ▸ hactive) hstate
  exhausts _ _ h := nomatch h.result
  aborts := fun ⟨hopen, _⟩ _ _ h => absurd hopen h.not_open
  creates _ _ hbuild := (Method.buildJob_ok hbuild).2.2
  dispatches := fun ⟨hopen, _⟩ _ _ _ _ h => absurd hopen h.not_open

/-- One call that creates only jobs that have not yet begun. -/
theorem Ledger.Adds.serves {l l' : Ledger} {c : RequestCall} {a : c.Answer}
    (h : l.Adds jobs name) (hcreate : ∀ {job}, c = .createJob job → job.status = none)
    (hs : l.Serves c a l') : l'.Adds jobs name := by
  cases hs.step with
  | still => exact h
  | @created job call free =>
      refine ⟨fun j hj => List.mem_append_left _ (h.kept hj), fun j hj => ?_, h.named⟩
      rcases List.mem_append.mp hj with hold | hnew
      · exact h.added j hold
      · obtain rfl := List.mem_singleton.mp hnew
        exact .inr (by simp [Job.state, hcreate call])
  | @written request revision s r new call latest same fresh =>
      refine ⟨h.kept, h.added, fun r' hr' => ?_⟩
      rcases List.mem_append.mp hr' with hold | hnew
      · exact h.named r' hold
      · obtain rfl := List.mem_singleton.mp hnew
        exact h.named r (Ledger.mem_of_latest? latest)

/-- A ledger keeps its side of the contract. -/
theorem ownershipContract_binds
    (own : HasSucceeded jobs name method → HasOwnSuccess jobs name uid method) :
    (ownershipContract jobs name uid method).Binds (fun _ _ => True)
      (Ledger.rules (fun _ => True) fun _ _ => False) where
  stable _ _ _ _ _ := trivial
  begins hl h := by
    obtain ⟨settings, r, now, -, hr, rfl⟩ := h
    exact (ownershipGuide settings own).reconcile hl ⟨hl, hl.named r hr⟩
  answers hl hpermit hs :=
    ⟨⟨trivial, hl.serves (fun hc => by subst hc; exact hpermit) hs⟩, hs.tells⟩
  changes _ h := h.elim
  shows _ := trivial

/-- Where the success of any job is that of an own one, success is earned. -/
theorem earns_of_own (own : HasSucceeded jobs name method → HasOwnSuccess jobs name uid method) :
    Earns jobs name uid method := by
  rintro l l' r settings now - hjobs hr hidentity ⟨request, revision, s, next, hmoves, hfenced⟩
  have hl : l.Adds jobs name :=
    ⟨hjobs ▸ List.Subset.refl _, fun j hj => .inl (hjobs ▸ hj), fun r hr => (hidentity r hr).1⟩
  have binds := ownershipContract_binds own
  have begun := binds.begins hl ⟨settings, r, now, trivial, hr, rfl⟩
  obtain ⟨hlead, hkeeps⟩ := begun.movesAlong binds hl hmoves
  obtain ⟨j, hj, hown⟩ := hkeeps.1 hfenced
  exact ⟨j, hlead.holds.kept hj, hown⟩

/-! ### Where it is not -/

/-- What succeeds after a step succeeds before it. -/
theorem Succeeds.head {l l' l'' : Ledger} {p p' : Program RequestStore (Except TaskError Outcome)}
    (hstep : Program.Moves (Ledger.rules (fun _ => True) fun _ _ => False) (l, p) (l', p'))
    (h : Succeeds l' l'' p' method) : Succeeds l l'' p method := by
  obtain ⟨request, revision, s, next, hmoves, hfenced⟩ := h
  exact ⟨request, revision, s, next, .head hstep hmoves, hfenced⟩

/-- A configuration with one method. -/
def Config.only (method : String) : Config where
  name := "only"
  methods := [{ name := method, mechanisms := [{}] }]

theorem Config.only_fault? (h : isBlankText method = false) :
    (Config.only method).fault? = none := by
  simp [fault?, only, methodsFault?, Method.fault?, h, Mechanism.fault?]

theorem Config.only_nextStep (elapsed : Duration) :
    (Config.only method).nextStep (some method) .succeeded elapsed = .complete method := by
  simp [nextStep, only, method?]

/-- A request of an identity whose only method is in use. -/
def Request.using (name : String) (uid : Option String) (method : String) : Request where
  metadata := { name := some name, uid := uid, resourceVersion := some "1" }
  status := some { config := some "only", activeMethod := some method }

/-- A ledger on which this request stands beside some jobs. -/
def Ledger.using (jobs : List Job) (name : String) (uid : Option String) (method : String) :
    Ledger where
  registry := Registry.insert {} (Config.only method)
  jobs := jobs
  revisions := [Request.using name uid method]

/-- Beside a job that has succeeded, whosever it is, the request ends with success. -/
theorem using_succeeds (h : HasSucceeded jobs name method) :
    Succeeds (.using jobs name uid method) (.using jobs name uid method)
      (reconcile {} (.using name uid method) ⟨0, 0⟩).run method := by
  obtain ⟨j, hj, hfor, hsucceeded⟩ := h
  have found : methodState ((Ledger.using jobs name uid method).jobs.filter
      (·.isFor (Request.using name uid method).name method)) = .succeeded :=
    methodState_succeeded_iff.mpr ⟨j, List.mem_filter.mpr ⟨hj, hfor⟩, hsucceeded⟩
  have shown : (Ledger.rules (fun _ => True) fun _ _ => False).shows
      (.using jobs name uid method) ⟨0, 0⟩ := trivial
  refine .head (.call (.effect .nodeLabels)) <| .head (.call (.effect .configs)) <|
    .head (.call (.effect .methodJobs)) ?_
  -- What follows depends on the jobs only by their state.
  simp only [Program.bind, ExceptT.bindCont, found, pure, ExceptT.pure, ExceptT.mk]
  simp only [Request.using, Option.getD_some, Program.bind, ExceptT.bindCont, Config.only_nextStep]
  refine .head (.clock shown) ⟨_, _, _, _, .refl, ?_⟩
  exact ⟨rfl, rfl, _, rfl, rfl⟩

/-- **Success is earned** exactly where no job of the method has succeeded, or an own one has. -/
theorem earns_iff (hm : isBlankText method = false) :
    Earns jobs name uid method ↔
      (HasSucceeded jobs name method → HasOwnSuccess jobs name uid method) := by
  refine ⟨fun h hsucceeded => ?_, earns_of_own⟩
  have sound : (Ledger.using jobs name uid method).registry.Sound :=
    Registry.sound_empty.insert (Config.only_fault? hm)
  have identity : ∀ r ∈ (Ledger.using jobs name uid method).revisions,
      r.name = name ∧ r.metadata.uid = uid := by
    intro r hr
    obtain rfl := List.mem_singleton.mp hr
    exact ⟨rfl, rfl⟩
  exact h _ _ _ {} ⟨0, 0⟩ sound rfl (List.mem_singleton_self _) identity
    (using_succeeds hsucceeded)

/-- A job that is left from a request of the same name. -/
def leftover : Job where
  metadata := {
    name := some "fence-fence-node-1-power-aaaa"
    labels := some [(requestLabel, "fence-node-1"), (methodLabel, "power")]
    owners := some [{ name := "fence-node-1", uid := "aaaa" }] }
  status := some { succeeded := some 1 }

/-- Beside a job that is left from another request, success is not earned. -/
theorem earns_iff_leftover :
    isBlankText "power" = false ∧ ¬ Earns [leftover] "fence-node-1" (some "bbbb") "power" := by
  refine ⟨by decide, fun h => ?_⟩
  have succeeded : HasSucceeded [leftover] "fence-node-1" "power" :=
    ⟨leftover, List.mem_singleton_self _, by decide, by decide⟩
  obtain ⟨j, hj, -, ⟨o, ho, huid⟩, -⟩ := (earns_iff (by decide)).mp h succeeded
  obtain rfl := List.mem_singleton.mp hj
  obtain rfl := List.mem_singleton.mp ho
  exact absurd huid (by decide)

/-- The request that comes after it, on a ledger where the other one's job is left. -/
def leftoverStart : Ledger where
  registry := Registry.insert {} (Config.only "power")
  jobs := [leftover]
  revisions := [{
    metadata := { name := some "fence-node-1", uid := some "bbbb", resourceVersion := some "1" }
    target := "node-1" }]

/-- The request puts its method in use and creates its job, and then ends with success while this
job runs. -/
theorem leftover_unearned :
    ∃ t : Traffic RequestStore (Except TaskError Outcome) Ledger,
      Traffic.Run (Ledger.rules (fun _ => True) fun _ _ => False) (.quiet leftoverStart) t ∧
      (∃ request revision s next,
        t.running 1 = some (.call (.patchStatus request revision s) next) ∧
          s.FencedBy "power") ∧
      t.site.jobs.map Job.state = [.succeeded, .running] ∧
      ¬ HasOwnSuccess t.site.jobs "fence-node-1" (some "bbbb") "power" := by
  have begins {l : Ledger} {r : Request} (hr : r ∈ l.revisions) :
      (Ledger.rules (fun _ => True) fun _ _ => False).begins l (reconcile {} r ⟨0, 0⟩).run :=
    ⟨{}, r, ⟨0, 0⟩, trivial, hr, rfl⟩
  have shown (l : Ledger) : (Ledger.rules (fun _ => True) fun _ _ => False).shows l ⟨0, 0⟩ :=
    trivial
  have other {l : Ledger} {j job : Job} (hl : l.jobs = [j])
      (hne : j.metadata.name ≠ job.metadata.name) : ¬ l.Holds job.metadata.name := by
    simpa [Ledger.Holds, hl] using hne
  have fresh (jobs : List Job) : Ledger.Fresh { leftoverStart with jobs } (some "2") :=
    ⟨rfl, by simp [leftoverStart]⟩
  have nothing : Traffic.Run (Ledger.rules (fun _ => True) fun _ _ => False)
      (.quiet leftoverStart) (.quiet leftoverStart) := .refl
  -- The first pass creates the own job of the request.
  obtain ⟨⟨l₁, running₁⟩, hrun₁, rfl, rfl⟩ := nothing.begins 0 rfl
    (begins (List.mem_singleton_self _)) <|
    .head (.call (.effect .nodeLabels)) <| .head (.call (.effect .configs)) <|
    .head (.clock (shown _)) <| .head (.clock (shown _)) <|
    .head (.call (.effect (.created (other rfl (by decide))))) <| .head (.clock (shown _)) <|
    .single (.call (.effect (.landed rfl (.inr rfl) (fresh _))))
  -- The second pass takes the success of the job that is left for that of the own one.
  obtain ⟨t, hrun, hsite, hrunning⟩ := Traffic.Run.begins 1 hrun₁ rfl
    (begins (List.mem_cons_of_mem _ (List.mem_singleton_self _))) <|
    .head (.call (.effect .nodeLabels)) <| .head (.call (.effect .configs)) <|
    .head (.call (.effect .methodJobs)) <| .head (.clock (shown _)) <| .single (.clock (shown _))
  refine ⟨t, hrun, ⟨_, _, _, _, by rw [hrunning]; rfl, rfl, rfl, _, rfl, rfl⟩,
    by rw [hsite]; rfl, ?_⟩
  rw [hsite]
  rintro ⟨j, hj, -, ⟨o, ho, huid⟩, hstate⟩
  rcases List.mem_cons.mp hj with rfl | hj
  · obtain rfl := List.mem_singleton.mp ho
    exact absurd huid (by decide)
  · obtain rfl := List.mem_singleton.mp hj
    exact absurd hstate (by decide)

end NodeFencing
