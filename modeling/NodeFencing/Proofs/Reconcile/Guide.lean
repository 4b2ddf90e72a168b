import NodeFencing.Proofs.Reconcile.Route

/-!
# What passes do

A guide for a contract gives a route to every pass, from whichever copy of a request it
starts: it says which copies these are, what is known of the status that a pass has in hand,
and that every call that it makes is permitted.  So passes keep the contract, and so does the
repetition of a pass that has lost its write.

## Main Definitions

* `Contract.Exits` — how a pass may end
* `Guide`, `Guide.route` — the conditions under which passes keep a contract, and the route of one
* `Guide.Ends` — how a repeated pass may end

## Main statements

* `Guide.pass` — a pass keeps the contract, and ends in one of its ways
* `Guide.reconcile`, `Guide.reconcile_ends` — so does a repeated one
-/

namespace NodeFencing

variable {W : Type} {K : Contract RequestStore W} {w : W}

/-! ### Exits -/

/-- How a pass over a copy of a request may end, whatever it has met: the request was at rest, it is
too early, the request was ended and this was stored, or there is something to wait for. -/
inductive Contract.Exits (K : Contract RequestStore W) (settings : Settings) (r : Request)
    (now : Instant) (w : W) : Outcome → Prop
  | resting (h : r.isComplete = true) : Exits K settings r now w .done
  | early {gate} (h : now < gate) : Exits K settings r now w (.requeue (gate.since now))
  | ended {w₀ s} (complete : s.complete = true)
      (told : K.Told w₀ w (.patchStatus r.name r.metadata.resourceVersion s) (.ok ())) :
      Exits K settings r now w .done
  | polls : Exits K settings r now w (.requeue settings.dispatch.jobPoll)
  | delayed {c : Config} {active state elapsed index remaining}
      (h : c.nextStep active state elapsed = .delay index remaining) :
      Exits K settings r now w (.requeue remaining)
  | escalates : Exits K settings r now w (.requeue escalationDelay)

/-! ### Guides -/

/-- The conditions under which passes keep a contract. -/
structure Guide (K : Contract RequestStore W) (settings : Settings) where
  /-- The copies of a request from which a pass may start. -/
  knows : W → Request → Prop
  /-- What is known of a status once a configuration is chosen. -/
  chosen : Request → Config → W → Status → Prop
  /-- What is known of it once the jobs of its method are looked at, and of their state. -/
  seen : Request → Config → W → Status → JobState → Prop
  knows_mono : ∀ {w w' r}, K.Leads w w' → knows w r → knows w' r
  chosen_mono : ∀ {w w' r c s}, K.Leads w w' → chosen r c w s → chosen r c w' s
  seen_mono : ∀ {w w' r c s state}, K.Leads w w' → seen r c w s state → seen r c w' s state
  /-- Calls that only read are permitted. -/
  reads : ∀ {w} (c : RequestCall), c.isRead = true → K.permits w c
  /-- A pass may start from what is answered when the request is asked for. -/
  latest : ∀ {w name r}, K.holds w → K.reports w (.getRequest name) (.ok (some r)) → knows w r
  /-- A request for which no configuration is found may be ended. -/
  rejects : ∀ {w w' r e t}, knows w' r → r.isComplete = false → K.Finds w w' r (.error e) →
    K.permits w' (.patchStatus r.name r.metadata.resourceVersion
      ((r.status.getD {}).finalize t .noConfig "" (some e.message)))
  chooses : ∀ {w w' r c t}, knows w' r → r.isComplete = false → K.Finds w w' r (.ok c) →
    chosen r c w' ((r.status.getD {}).choosing c t)
  idle : ∀ {w r c s}, chosen r c w s → s.activeMethod = none → seen r c w s .missing
  looks : ∀ {w r c s method jobs t}, chosen r c w s → s.activeMethod = some method →
    K.reports w (.methodJobs r.name method) (.ok jobs) →
    seen r c w (s.observing method jobs t) (methodState jobs)
  /-- The status may be written as it is. -/
  keeps : ∀ {w r c s state}, seen r c w s state →
    K.permits w (.patchStatus r.name r.metadata.resourceVersion s)
  /-- A request whose methods say so may be ended, with success or without. -/
  completes : ∀ {w r c s state elapsed method t}, seen r c w s state →
    c.nextStep s.activeMethod state elapsed = .complete method →
    K.permits w (.patchStatus r.name r.metadata.resourceVersion
      (s.finalize t .success ("fenced by " ++ method)))
  exhausts : ∀ {w r c s state elapsed last t}, seen r c w s state →
    c.nextStep s.activeMethod state elapsed = .exhausted last →
    K.permits w (.patchStatus r.name r.metadata.resourceVersion
      (s.finalize t .givingUp "all methods failed"))
  /-- A method without a job may be put in use and has failed at once. -/
  aborts : ∀ {w r c s state elapsed index m e t t'}, seen r c w s state →
    c.nextStep s.activeMethod state elapsed = .dispatch index m →
    m.buildJob c r settings.dispatch.build = .error e →
    K.permits w (.patchStatus r.name r.metadata.resourceVersion
      ((s.selecting m.name t).record t' (some m.name) .methodFailed "" (some e.message)))
  /-- The job of a method may be created, and once it is, it may be said so. -/
  creates : ∀ {w r c s state elapsed index m job}, seen r c w s state →
    c.nextStep s.activeMethod state elapsed = .dispatch index m →
    m.buildJob c r settings.dispatch.build = .ok job → K.permits w (.createJob job)
  dispatches : ∀ {w w' r c s state elapsed index m job a t t'}, seen r c w' s state →
    c.nextStep s.activeMethod state elapsed = .dispatch index m →
    m.buildJob c r settings.dispatch.build = .ok job → K.Told w w' (.createJob job) a →
    RequestCall.saysCreated a = true →
    K.permits w' (.patchStatus r.name r.metadata.resourceVersion
      ((s.selecting m.name t).dispatched m.name (r.jobName m.name) t'))

namespace Guide

variable {settings : Settings} (G : Guide K settings) {r : Request} {now : Instant}

/-- The route of a pass over a copy from which it may start. -/
def route (hr : G.knows w r) (now : Instant) : Route K settings r now w where
  chosen := G.chosen r
  seen := G.seen r
  chosen_mono := G.chosen_mono
  seen_mono := G.seen_mono
  reads c _ hread := G.reads c hread
  rejects hlead due := G.rejects (G.knows_mono hlead hr) due.isOpen
  chooses hlead due := G.chooses (G.knows_mono hlead hr) due.isOpen
  idle _ := G.idle
  looks _ := G.looks
  creates _ := G.creates
  writes _ hseen hconcl hcreated := by
    generalize hnext : Config.nextStep _ _ _ _ = decision at hconcl hcreated
    cases hconcl with
    | waits | delays => exact G.keeps hseen
    | completes => exact G.completes hseen hnext
    | exhausts => exact G.exhausts hseen hnext
    | aborts unbuilt => exact G.aborts hseen hnext unbuilt
    | dispatches built =>
        obtain ⟨a, told, created⟩ := hcreated _ _ _ rfl built
        exact G.dispatches hseen hnext built told created

/-- At the end of its route a pass leaves by one of the exits. -/
theorem exits {hr : G.knows w r} {w' : W} {outcome : Outcome}
    (h : (G.route hr now).Ends w' outcome) : K.Exits settings r now w' outcome := by
  cases h with
  | resting h => exact .resting h
  | early _ h => exact .early h
  | rejected told => exact .ended rfl told
  | concluded due seen hconcl written =>
      -- The request is open, so a status that ends it is not the one that it has.
      have told {s' : Status} (written : r.status.getD {} = s' ∨ K.Told w w'
          (.patchStatus r.name r.metadata.resourceVersion s') (.ok ()))
          (hended : s'.complete = true) :
          K.Told w w' (.patchStatus r.name r.metadata.resourceVersion s') (.ok ()) := by
        refine written.resolve_left ?_
        rintro rfl
        exact Bool.noConfusion ((r.isComplete_eq.symm.trans due.isOpen).symm.trans hended)
      generalize hnext : Config.nextStep _ _ _ _ = decision at hconcl
      cases hconcl with
      | waits => exact .polls
      | delays => exact .delayed hnext
      | completes => exact .ended rfl (told written rfl)
      | exhausts => exact .ended rfl (told written rfl)
      | aborts => exact .escalates
      | dispatches => exact .polls

/-- **One pass** keeps a contract for which there is a guide, and ends in one of its ways. -/
theorem pass (hw : K.holds w) (hr : G.knows w r) :
    Task.Keeps K (K.Exits settings r now) (NodeFencing.pass settings r now) w :=
  .weaken hw ((G.route hr now).pass hw) fun _ _ _ => G.exits

/-- How a pass ends that is repeated when it has lost its write: as a pass over some copy does, or
with the answer that the request is gone. -/
def Ends (now : Instant) (w : W) (outcome : Outcome) : Prop :=
  (∃ r w', G.knows w' r ∧ K.Leads w' w ∧ K.Exits settings r now w outcome) ∨
    outcome = .done ∧ ∃ w₀ name, K.Told w₀ w (.getRequest name) (.ok none)

/-- **A pass that is repeated** from the latest revision when it has lost its write. -/
theorem reconcile_ends (hw : K.holds w) (hr : G.knows w r) :
    Task.Keeps K (G.Ends now) (NodeFencing.reconcile settings r now) w := by
  have once {w : W} {r : Request} (hw : K.holds w) (hr : G.knows w r) :
      Task.Keeps K (G.Ends now) (NodeFencing.pass settings r now) w :=
    .weaken hw (G.pass hw hr) fun w' outcome hlead hexits => .inl ⟨r, w, hr, hlead, hexits⟩
  have gone {w₀ w : W} {name : String} (told : K.Told w₀ w (.getRequest name) (.ok none)) :
      G.Ends now w .done := .inr ⟨rfl, w₀, name, told⟩
  exact reconcile_keeps G.knows (fun name => G.reads (.getRequest name) rfl) G.knows_mono G.latest
    once gone hw hr

@[inherit_doc reconcile_ends]
theorem reconcile (hw : K.holds w) (hr : G.knows w r) :
    (NodeFencing.reconcile settings r now).run.Keeps K (fun _ _ => True) w :=
  Program.Keeps.weaken hw (G.reconcile_ends hw hr) fun _ _ _ _ => trivial

end Guide

end NodeFencing
