import NodeFencing.Proofs.Escalation
import NodeFencing.Proofs.Program.Record
import NodeFencing.Proofs.Reconcile.Entry
import NodeFencing.Proofs.Reconcile.History
import NodeFencing.Proofs.Reconcile.Turn
import NodeFencing.Proofs.Registry

/-!
# A configuration that is replaced

A request keeps the configuration that was chosen for it.  Labels may change, and other
configurations may come that suit the node better; only when the registry does not hold it any
more is another one chosen.  Then the methods start anew: the same write that notes the new
configuration says so in the log, and has no method in use or the first one of the new
configuration, whichever was in use before.

A write replaces a revision only if the pass has started from it.  So what is stored may be
told from what one pass was answered, however many others are under way.

## Main Definitions

* `Request.Replaces` — a status with which a configuration is replaced
* `Request.Sticks` — a status that keeps the configuration or replaces it
* `stickyRoute` — the route of a pass on its own past

## Main statements

* `pass_sticks` — what a pass writes
* `reconcile_writes` — a write is one of a pass over some copy
* `config_sticks` — a configuration is replaced only when it is gone, and then the methods start
  anew
-/

namespace NodeFencing

/-- If another configuration is chosen than before, that one is not there any more. -/
theorem Snapshot.select_other {s : Snapshot} {name target : String} {labels : StringMap String}
    {c : Config} (h : s.select (some name) target labels = .ok c) (other : c.name ≠ name) :
    s.get? name = none := by
  cases hget : s.get? name with
  | none => rfl
  | some c' =>
      obtain rfl := Except.ok.inj ((select_chosen hget).symm.trans h)
      exact absurd (by simpa using List.find?_some hget) other

/-! ### What a pass writes -/

section Writes

variable {W : Type} {r : Request} {name : String} {past past' : List (Exchange RequestStore W)}
  {s s' : Status} {c : Config} {settings : Settings} {now : Instant}

/-- A status with which the configuration of a request is replaced, after what was told: the old
one was not there, no method is in use but the first of the new one, and the log says so. -/
structure Request.Replaces (r : Request) (name : String) (past : List (Exchange RequestStore W))
    (s : Status) (c : Config) : Prop where
  lost : ∃ w w' snapshot, ⟨w, .configs, snapshot, w'⟩ ∈ past ∧
    Snapshot.get? snapshot name = none ∧ c ∈ snapshot
  config : s.config = some c.name
  restarts : s.activeMethod = none ∨ ∃ m, c.methods.head? = some m ∧ s.activeMethod = some m.name
  logged : ∃ more, s.log = r.log ++ .of none .configSelected c.name :: more

/-- A status that keeps the configuration of a request or replaces it. -/
def Request.Sticks (r : Request) (past : List (Exchange RequestStore W)) (s : Status) : Prop :=
  ∀ name, (r.status.getD {}).config = some name →
    s.config = some name ∨ ∃ c, r.Replaces name past s c

theorem Request.Replaces.mono (hpast : past <+: past') (h : r.Replaces name past s c) :
    r.Replaces name past' s c := by
  obtain ⟨w, w', snapshot, hmem, hlost⟩ := h.lost
  exact ⟨⟨w, w', snapshot, hpast.subset hmem, hlost⟩, h.config, h.restarts, h.logged⟩

/-- What a pass has in hand that has chosen a configuration: if it is another one than before, no
method is in use. -/
def Request.Chosen (r : Request) (c : Config) (past : List (Exchange RequestStore W))
    (s : Status) : Prop :=
  ∀ name, (r.status.getD {}).config = some name →
    s.config = some name ∨ (r.Replaces name past s c ∧ s.activeMethod = none)

theorem Request.Chosen.mono (hpast : past <+: past') (h : r.Chosen c past s) :
    r.Chosen c past' s :=
  fun name config => (h name config).imp_right fun ⟨replaces, hnone⟩ =>
    ⟨replaces.mono hpast, hnone⟩

/-- The conduct of a pass that keeps the configuration of its request or replaces it. -/
def stickyConduct (W : Type) (r : Request) : Conduct RequestStore W where
  allows past call := ∀ request revision s, call = .patchStatus request revision s →
    request = r.name ∧ revision = r.metadata.resourceVersion ∧ r.Sticks past s
  mono hpast h request revision s hcall := by
    obtain ⟨hname, hrevision, sticks⟩ := h request revision s hcall
    refine ⟨hname, hrevision, fun name config => (sticks name config).imp_right ?_⟩
    exact fun ⟨c, replaces⟩ => ⟨c, replaces.mono hpast⟩

/-- Where a configuration is found, it is the one of before or replaces it. -/
theorem Request.chosen_choosing {t : Instant}
    (found : (stickyConduct W r).contract.Finds [] past r (.ok c)) :
    r.Chosen c past ((r.status.getD {}).choosing c t) := by
  intro name config
  obtain ⟨labels, snapshot, -, hconfigs, hselect⟩ := found
  obtain ⟨w, w', hmem⟩ := hconfigs.exchanged
  rw [config] at hselect
  by_cases hsame : c.name = name
  · exact .inl (by rw [Status.config_choosing, hsame])
  · have other : (r.status.getD {}).config ≠ some c.name :=
      fun heq => hsame (Option.some.inj (heq.symm.trans config))
    have restarted : ((r.status.getD {}).choosing c t).activeMethod = none := by
      unfold Status.choosing
      rw [if_neg other, config]
      rfl
    have lost := Snapshot.select_other hselect hsame
    refine .inr ⟨⟨⟨w, w', snapshot, hmem, lost, Snapshot.mem_of_select hselect⟩, ?_, ?_, ?_⟩,
      restarted⟩
    · exact Status.config_choosing _ _ _
    · exact .inl restarted
    · exact ⟨[], Status.log_choosing _ t other⟩

/-- What is added to a status that was chosen, while the method in use is none or the first. -/
theorem Request.Chosen.sticks (h : r.Chosen c past s) (config : s'.config = s.config)
    (restarts : s.activeMethod = none → s'.activeMethod = none ∨
      ∃ m, c.methods.head? = some m ∧ s'.activeMethod = some m.name)
    (goesOn : s.log <+: s'.log) : r.Sticks past s' := by
  intro name hname
  rcases h name hname with hsame | ⟨replaces, hnone⟩
  · exact .inl (config.trans hsame)
  · obtain ⟨more, hlog⟩ := replaces.logged
    obtain ⟨rest, hrest⟩ := goesOn
    refine .inr ⟨c, replaces.lost, config.trans replaces.config, restarts hnone, more ++ rest, ?_⟩
    rw [← hrest, hlog, List.append_assoc, List.cons_append]

/-- What is decided over a status that was chosen keeps the configuration or replaces it. -/
theorem Request.Chosen.concludes {state : JobState} {elapsed : Duration} {outcome : Outcome}
    (h : r.Chosen c past s)
    (concludes : s.Concludes settings r c (c.nextStep s.activeMethod state elapsed) s' outcome) :
    r.Sticks past s' := by
  generalize hnext : c.nextStep s.activeMethod state elapsed = decision at concludes
  -- With no method in use, the first one is next.
  have first {index : Nat} {m : Method} (hd : decision = .dispatch index m)
      (hnone : s.activeMethod = none) : c.methods.head? = some m := by
    obtain ⟨hm, ⟨-, rfl⟩ | ⟨_, _, hactive, -⟩⟩ := Config.nextStep_dispatch (hnext.trans hd)
    · rw [List.head?_eq_getElem?]
      exact hm
    · rw [hnone] at hactive
      cases hactive
  have goesOn : s.log <+: s'.log := concludes.prefix_updates.map Update.entry
  cases concludes with
  | waits => exact h.sticks rfl .inl goesOn
  | delays => exact h.sticks rfl .inl goesOn
  | completes => exact h.sticks rfl .inl goesOn
  | exhausts => exact h.sticks rfl .inl goesOn
  | aborts => exact h.sticks rfl (fun hnone => .inr ⟨_, first rfl hnone, rfl⟩) goesOn
  | dispatches => exact h.sticks rfl (fun hnone => .inr ⟨_, first rfl hnone, rfl⟩) goesOn

variable (r settings now) in
/-- The route of a pass on its own past. -/
def stickyRoute : Route (stickyConduct W r).contract settings r now [] where
  chosen c past s := r.Chosen c past s
  seen c past s _ := r.Chosen c past s
  chosen_mono hlead h := h.mono hlead.evolves
  seen_mono hlead h := h.mono hlead.evolves
  reads c _ hread := by
    rintro request revision s rfl
    cases hread
  rejects _ _ _ := by
    rintro _ _ _ ⟨⟩
    exact ⟨rfl, rfl, fun name config => .inl config⟩
  chooses _ _ found := Request.chosen_choosing found
  idle _ h _ := h
  looks {past c s method jobs t} _ h hm _ := by
    intro name config
    refine .inl ?_
    rcases h name config with hsame | ⟨-, hnone⟩
    · exact (Status.config_observing _ _ _ _).trans hsame
    · cases hm.symm.trans hnone
  creates _ _ _ _ := by
    intro request revision s hcall
    cases hcall
  writes _ h concludes _ := by
    rintro _ _ _ ⟨⟩
    exact ⟨rfl, rfl, h.concludes concludes⟩

variable {R : Rules RequestStore (Except TaskError Outcome) W} {w w' : W}
  {had : List (Exchange RequestStore W)} {q : Program RequestStore (Except TaskError Outcome)}

/-- **What a pass writes** keeps the configuration of its request or replaces it. -/
theorem pass_sticks (h : Program.Goes R w (pass settings r now).run had w' q)
    {request : String} {revision : Option String}
    (hq : q.pending? = some (.patchStatus request revision s)) :
    request = r.name ∧ revision = r.metadata.resourceVersion ∧ r.Sticks had s := by
  have keeps : Task.Keeps (stickyConduct W r).contract _ (pass settings r now) [] :=
    (stickyRoute r settings now).pass trivial
  exact (Program.Keeps.recalled keeps h).1.permits_pending hq _ _ _ rfl

/-! ### The pass that writes -/

/-- **A write is one of a pass** over the copy that was given, or over the one that was read when
the write of the first pass was lost. -/
theorem reconcile_writes {request : String} {revision : Option String}
    (h : Program.Goes R w (reconcile settings r now).run had w' q)
    (hq : q.pending? = some (.patchStatus request revision s)) :
    ∃ base before own w₁ q₁, had = before ++ own ∧
      Program.Goes (R.serving _) w₁ (pass settings base now).run own w' q₁ ∧
      q₁.pending? = some (.patchStatus request revision s) ∧
      (base = r ∧ before = [] ∨
        ∃ w₂ w₂', ⟨w₂, .getRequest r.name, .ok (some base), w₂'⟩ ∈ before) := by
  have idle {b : Except TaskError Outcome} {had w₁} (h : Program.Goes R w₁ (.done b) had w' q) :
      False := by
    rw [h.of_done.2] at hq
    cases hq
  unfold reconcile at h
  rcases h.split.pending hq with ⟨q₁, h₁, hq₁⟩ | ⟨before, w₁, result, behind, h₁, h₂, rfl⟩
  · exact ⟨r, [], had, w, q₁, rfl, h₁, hq₁, .inl ⟨rfl, rfl⟩⟩
  · cases result with
    | ok outcome => exact (idle h₂).elim
    | error e =>
        dsimp only at h₂
        split at h₂
        · rcases h₂.split.pending hq with ⟨q₂, hask, hq₂⟩ | ⟨asked, w₂, answer, own, hask, h₃, rfl⟩
          · obtain ⟨-, rfl⟩ | ⟨_, _, _, -, rfl⟩ :=
                Program.Goes.of_ask (I := RequestStore) (c := .getRequest r.name) hask
            · cases hq₂
            · cases hq₂
          · obtain ⟨-, hdone⟩ | ⟨w₃, a, w₃', rfl, hdone⟩ :=
                Program.Goes.of_ask (I := RequestStore) (c := .getRequest r.name) hask
            · cases hdone
            · obtain rfl := Program.done.inj hdone
              match answer with
              | .error e => exact (idle h₃).elim
              | .ok none => exact (idle h₃).elim
              | .ok (some base) =>
                  refine ⟨base, before ++ [_], own, w₂, q, (List.append_assoc ..).symm, h₃.serving,
                    hq, .inr ⟨w₃, w₃', ?_⟩⟩
                  exact List.mem_append_right _ (List.mem_singleton_self _)
        · exact (idle h₂).elim

end Writes

/-! ### Runs -/

/-- No revision is forgotten while a program goes its way, and none that it has met. -/
theorem Ledger.revisions_grow {runs : Settings → Prop} {l₀ l : Ledger}
    {p₀ p : Program RequestStore (Except TaskError Outcome)}
    {had : List (Exchange RequestStore Ledger)}
    (h : Program.Goes (Ledger.rules runs Ledger.Around).amid l₀ p₀ had l p) :
    l₀.revisions <+: l.revisions ∧ ∀ x ∈ had, x.behind.revisions <+: l.revisions := by
  have served {l l' : Ledger} {c : RequestCall} {a : c.Answer} (h : l.Serves c a l') :
      l.revisions <+: l'.revisions := by
    cases h.step with
    | still => exact List.prefix_rfl
    | created => exact List.prefix_rfl
    | written => exact List.prefix_append _ _
  have around {l l' : Ledger} (h : l.Around l') : l.revisions <+: l'.revisions := by
    cases h with
    | surroundings => exact List.prefix_rfl
    | edited => exact List.prefix_append _ _
    | deleted => exact List.prefix_rfl
  induction h with
  | begun => exact ⟨List.prefix_rfl, fun x hx => absurd hx List.not_mem_nil⟩
  | calls h answered ih =>
      have grows := served answered
      refine ⟨ih.1.trans grows, fun x hx => ?_⟩
      rcases List.mem_append.mp hx with hold | hnew
      · exact (ih.2 x hold).trans grows
      · obtain rfl := List.mem_singleton.mp hnew
        exact List.prefix_rfl
  | pauses h ih => exact ih
  | looks h shown ih => exact ih
  | others h changed ih =>
      rcases changed with changed | ⟨c, a, answered⟩
      · exact ⟨ih.1.trans (around changed), fun x hx => (ih.2 x hx).trans (around changed)⟩
      · exact ⟨ih.1.trans (served answered), fun x hx => (ih.2 x hx).trans (served answered)⟩

/-- **A write over the latest revision** is one of a pass that has started from it. -/
theorem write_over_latest {runs : Settings → Prop} {l : Ledger} {r : Request} {s : Status}
    {t : Traffic RequestStore (Except TaskError Outcome) Ledger}
    {past : Nat → List (Exchange RequestStore Ledger)} {k : Nat}
    {p : Program RequestStore (Except TaskError Outcome)} {request : String}
    {revision : Option String}
    (hrec : Traffic.Recorded (Ledger.rules runs Ledger.Around) l t past) (hl : t.site.Versioned)
    (busy : t.running k = some p) (hp : p.pending? = some (.patchStatus request revision s))
    (latest : t.site.latest? = some r)
    (same : revision = none ∨ revision = r.metadata.resourceVersion) :
    request = r.name ∧ revision = r.metadata.resourceVersion ∧
      ∃ before own settings now l₁ q, past k = before ++ own ∧
        Program.Goes ((Ledger.rules runs Ledger.Around).amid.serving _) l₁
          (pass settings r now).run own t.site q ∧
        q.pending? = some (.patchStatus request revision s) ∧ r.Sticks own s := by
  obtain ⟨l₀, p₀, ⟨settings, r₀, now, -, hr₀, rfl⟩, hgoes⟩ := hrec.goes busy
  obtain ⟨base, before, own, l₁, q, hpast, hown, hq, hbase⟩ := reconcile_writes hgoes hp
  obtain ⟨rfl, rfl, sticks⟩ := pass_sticks hown hq
  obtain ⟨hgrown, hmet⟩ := Ledger.revisions_grow hgoes
  -- The pass has started from a revision that was stored then, so it still is.
  have stored : base ∈ t.site.revisions := by
    rcases hbase with ⟨rfl, -⟩ | ⟨l₂, l₂', hread⟩
    · exact hgrown.subset hr₀
    · have hmem : ⟨l₂, .getRequest r₀.name, .ok (some base), l₂'⟩ ∈ past k :=
        hpast ▸ List.mem_append_left _ hread
      have served : l₂.Serves (.getRequest r₀.name) (.ok (some base)) l₂' := hgoes.answered _ hmem
      exact (hmet _ hmem).subset (Ledger.mem_of_latest? (served.tells _ rfl))
  obtain rfl := hl.pinned latest stored same
  exact ⟨rfl, rfl, before, own, settings, now, l₁, q, hpast, hown, hq, sticks⟩

/-- A status is stored behind a revision by a pass that has started from it: what the pass was told
is the last that one of the programs was. -/
structure Landed (t t' : Traffic RequestStore (Except TaskError Outcome) Ledger)
    (past : Nat → List (Exchange RequestStore Ledger)) (r r' : Request)
    (own : List (Exchange RequestStore Ledger)) (s : Status) : Prop where
  program : ∃ k p before, t.running k = some p ∧
    p.pending? = some (.patchStatus r.name r.metadata.resourceVersion s) ∧ past k = before ++ own
  pass : ∃ settings now l q,
    Program.Goes ((Ledger.rules (fun _ => True) Ledger.Around).amid.serving _) l
      (pass settings r now).run own t.site q ∧
    q.pending? = some (.patchStatus r.name r.metadata.resourceVersion s)
  stored : ∃ v, t'.site = t.site.add (r.written s v) ∧ r' = r.written s v

/-- **A configuration is replaced only when it is gone.**  Copies of any revision of a request are
worked on side by side, in any number and with any settings, while others change the registry, the
labels and the jobs in any way, and calls fail.  The next revision has the configuration of the one
before, unless a pass has replaced it by a write that has landed: then the registry did not hold it
when this very pass looked, the same write says in the log which one was selected, and no method is
in use but the first one of the new configuration. -/
theorem config_sticks {l : Ledger} {r₀ r r' : Request} {name : String}
    {t t' : Traffic RequestStore (Except TaskError Outcome) Ledger}
    {past : Nat → List (Exchange RequestStore Ledger)} (hstart : l.revisions = [r₀])
    (hversion : r₀.metadata.resourceVersion.isSome)
    (hrec : Traffic.Recorded (Ledger.rules (fun _ => True) Ledger.Around) l t past)
    (hstep : Traffic.Step (Ledger.rules (fun _ => True) Ledger.Around) t t')
    (latest : t.site.latest? = some r) (config : (r.status.getD {}).config = some name)
    (latest' : t'.site.latest? = some r') :
    (r'.status.getD {}).config = some name ∨
      ∃ own s c, Landed t t' past r r' own s ∧ r.Replaces name own s c := by
  have hl : l.Chronicle := ⟨.single hstart hversion, by simp [hstart]⟩
  have quiet : Traffic.Orderly historyContract (fun _ _ => True)
      (Traffic.quiet l : Traffic RequestStore (Except TaskError Outcome) Ledger) := .quiet hl
  have chronicle := (quiet.run (historyContract_binds _) hrec.run).2.holds
  have unchanged (hsame : t'.site.latest? = t.site.latest?) :
      (r'.status.getD {}).config = some name := by
    obtain rfl := Option.some.inj (latest.symm.trans (hsame.symm.trans latest'))
    exact config
  cases hstep with
  | begin => exact .inl (unchanged rfl)
  | change hc =>
      cases hc with
      | surroundings => exact .inl (unchanged rfl)
      | edited latest'' same fresh =>
          obtain rfl := Option.some.inj (latest.symm.trans latest'')
          obtain rfl := Option.some.inj ((Ledger.latest?_add latest).symm.trans latest')
          exact .inl (same ▸ config)
      | deleted => cases latest'
  | @advance k p l' p' busy hm =>
      cases hm with
      | pause => exact .inl (unchanged rfl)
      | clock => exact .inl (unchanged rfl)
      | @call _ _ c a next answered =>
          have served : t.site.Serves c a l' := answered
          cases served.step with
          | still => exact .inl (unchanged rfl)
          | created => exact .inl (unchanged rfl)
          | @written request revision s _ v call latest'' same fresh =>
              obtain rfl := Option.some.inj (latest.symm.trans latest'')
              obtain rfl := Option.some.inj ((Ledger.latest?_add latest).symm.trans latest')
              have pending : (Program.call c next).pending? =
                  some (.patchStatus request revision s) := congrArg some call
              obtain ⟨rfl, rfl, before, own, settings, now, l₁, q, hpast, hown, hq, sticks⟩ :=
                write_over_latest hrec chronicle.versioned busy pending latest same
              refine (sticks name config).imp_right fun ⟨c', replaces⟩ => ⟨own, s, c', ?_, replaces⟩
              exact ⟨⟨k, _, before, busy, pending, hpast⟩, ⟨settings, now, l₁, q, hown, hq⟩,
                v, rfl, rfl⟩

/-- A request for which a configuration was chosen, and a method is in use. -/
def chosenRequest : Request where
  metadata := { name := some "fence-node-1", resourceVersion := some "1" }
  target := "node-1"
  status := some { config := some "racks", activeMethod := some "power" }

/-- A ledger on which there is another configuration only. -/
def chosenStart : Ledger where
  registry := Registry.insert {} {
    name := "blades"
    methods := [{ name := "reset", mechanisms := [{ command := some ["off"] }] }] }
  revisions := [chosenRequest]

/-- The other configuration is selected then, and the request begins with its first method. -/
theorem config_sticks_replaced :
    ∃ t t' past r r' own s c, Landed t t' past r r' own s ∧ r.Replaces "racks" own s c ∧
      (r'.status.getD {}).config = some "blades" ∧
      (r'.status.getD {}).activeMethod = some "reset" := by
  have free (job : Job) : ¬ chosenStart.Holds job.metadata.name := by
    simp [Ledger.Holds, chosenStart]
  have fresh (jobs : List Job) : Ledger.Fresh { chosenStart with jobs } (some "2") :=
    ⟨rfl, by simp [chosenStart, chosenRequest]⟩
  have shown (l : Ledger) : (Ledger.rules (fun _ => True) Ledger.Around).shows l ⟨0, 0⟩ := trivial
  have nothing : Traffic.Recorded (Ledger.rules (fun _ => True) Ledger.Around) chosenStart
      (.quiet chosenStart) fun _ => [] := .quiet
  have begun := nothing.begin (k := 0) rfl
    ⟨{}, chosenRequest, ⟨0, 0⟩, trivial, List.mem_singleton_self _, rfl⟩
  have looked := (begun.call (k := 0) rfl (.effect .nodeLabels)).call (k := 0) rfl
    (.effect .configs)
  have decided := (looked.clock (k := 0) rfl (shown _)).clock (k := 0) rfl (shown _)
  have created := (decided.call (k := 0) rfl (.effect (.created (free _)))).clock (k := 0) rfl
    (shown _)
  rcases config_sticks rfl rfl created
      (.advance (k := 0) rfl (.call (.effect (.landed rfl (.inr rfl) (fresh _))))) rfl rfl rfl
    with hsame | ⟨own, s, c, hlanded, replaces⟩
  · exact absurd (Option.some.inj hsame) (by decide)
  · exact ⟨_, _, _, _, _, own, s, c, hlanded, replaces, rfl, rfl⟩

end NodeFencing
