import NodeFencing.Proofs.Monitor.Withdrawal

/-!
# A recovery is dealt with once

When a node is ready again, the requests for it are withdrawn, and then its recovery is settled:
they are not looked for again until the node was seen in another state, or is gone.  Which nodes
are settled can be told from the signals and from how they have ended, and without the memory of
the monitor: a node is settled if a recovery of it was completed after the last signal that upset
it.  A recovery that could not be completed is open, and the next signal tries again.

## Main Definitions

* `Monitor.Shows` — a signal because of which a monitor looks at a node
* `Monitor.Steady` — a node that is ready, and has been for long enough
* `Monitor.Upsets` — a signal after which nothing is settled about a node
* `Monitor.Recovers`, `Monitor.SettledBy` — a recovery that is completed, and one that still counts

## Main statements

* `Monitor.react_view` — a monitor looks at a node, or a node is gone, or its memory stays
* `Monitor.react_settled` — what one signal does to the settled nodes
* `Monitor.observe_lists` — when the requests for a node that is ready are listed
* `Monitor.Attends.recovers_once` — the settled nodes and the listings of a whole run
-/

namespace NodeFencing

theorem Node.ReadySince.unique {n : Node} {since since' : Option Instant}
    (h : n.ReadySince since) (h' : n.ReadySince since') : since = since' := by
  obtain ⟨ready, hready, -, rfl⟩ := h
  obtain ⟨ready', hready', -, rfl⟩ := h'
  rw [Option.some.inj (hready.symm.trans hready')]

namespace Monitor

/-! ### The memory of a monitor -/

@[simp] theorem isSettled_settle (m : Monitor) (node other : String) :
    (m.settle node).isSettled other = true ↔ other = node ∨ m.isSettled other = true := by
  unfold settle
  split
  · next settled => exact ⟨.inr, fun h => h.elim (fun same => same ▸ settled) id⟩
  · simp [isSettled]

@[simp] theorem isSettled_unsettle (m : Monitor) (node other : String) :
    (m.unsettle node).isSettled other = true ↔ m.isSettled other = true ∧ other ≠ node := by
  simp [isSettled, unsettle]

/-! ### What a signal is about -/

/-- A signal because of which a monitor looks at a node: the node is seen, or it is known when an
event that counts has come from a node, and such events do not count by themselves. -/
inductive Shows (m : Monitor) : Notice → Node → Instant → Prop
  | seen {n : Node} {now : Instant} : Shows m (.seen n now) n now
  | known {e : Event} {n : Node} {now : Instant} {source : String} (heeded : m.Heeded e)
      (about : e.node? = some source) (policy : m.health.fenceOnProblemEvents = false) :
      Shows m (.event e (some n) now) n now

/-- A node that is ready, and has been for long enough if the settings ask for that. -/
def Steady (m : Monitor) (n : Node) (now : Instant) : Prop :=
  ∃ since, n.ReadySince since ∧ ∀ seconds, m.health.recovery = .afterStable seconds →
    Duration.ofSeconds seconds ≤ (since.map now.since).getD {}

/-- A signal after which nothing is settled about a node: it is seen in another state or is gone. -/
inductive Upsets (m : Monitor) : Notice → String → Prop
  | shown {notice : Notice} {n : Node} {now : Instant} (shows : m.Shows notice n now)
      (unready : ∀ since, ¬ n.ReadySince since) : Upsets m notice n.metadata.nameOrBase
  | gone {node : String} : Upsets m (.gone node) node

/-- A signal with its outcome completes the recovery of a node. -/
structure Recovers (m : Monitor) (notice : Notice) (outcome : Except TaskError MonitorAction)
    (node : String) : Prop where
  steady : ∃ n now, m.Shows notice n now ∧ n.metadata.nameOrBase = node ∧ m.Steady n now
  succeeds : ∃ action, outcome = .ok action

variable {W : Type} {R : SiteRules W} {w₀ w : W} {m₀ m m' : Monitor} {notice : Notice} {n : Node}
  {now : Instant} {node : String} {past : List (Handling W)} {rest : Reaction}
  {had : List (Exchange MonitorStore W)} {outcome : Except TaskError MonitorAction}

/-- A signal that was handled to its end and has completed the recovery of a node. -/
def Completes (m : Monitor) (t : Handling W) (node : String) : Prop :=
  ∃ outcome m', t.rest = .done (outcome, m') ∧ m.Recovers t.notice outcome node

/-- A recovery of a node was completed, and no signal has upset the node since. -/
def SettledBy (m : Monitor) (past : List (Handling W)) (node : String) : Prop :=
  ∃ before t after, past = before ++ t :: after ∧ m.Completes t node ∧
    ∀ u ∈ after, ¬ m.Upsets u.notice node

theorem Shows.unique {n' : Node} {now' : Instant} (h : m.Shows notice n now)
    (h' : m.Shows notice n' now') : n = n' ∧ now = now' := by
  cases h <;> cases h' <;> exact ⟨rfl, rfl⟩

/-- A signal that shows a node completes the recovery of no other one. -/
theorem Shows.recovers_iff (shows : m.Shows notice n now) : m.Recovers notice outcome node ↔
    node = n.metadata.nameOrBase ∧ m.Steady n now ∧ ∃ action, outcome = .ok action := by
  constructor
  · rintro ⟨⟨n', now', shows', hname, steady⟩, succeeds⟩
    obtain ⟨rfl, rfl⟩ := shows.unique shows'
    exact ⟨hname.symm, steady, succeeds⟩
  · rintro ⟨hname, steady, succeeds⟩
    exact ⟨⟨n, now, shows, hname.symm, steady⟩, succeeds⟩

/-- A signal that shows a node upsets no other one. -/
theorem Shows.upsets_iff (shows : m.Shows notice n now) : m.Upsets notice node ↔
    node = n.metadata.nameOrBase ∧ ∀ since, ¬ n.ReadySince since := by
  constructor
  · intro upsets
    cases upsets with
    | shown shows' unready =>
        obtain ⟨rfl, rfl⟩ := shows.unique shows'
        exact ⟨rfl, unready⟩
    | gone => cases shows
  · rintro ⟨rfl, unready⟩
    exact .shown shows unready

theorem upsets_gone_iff {other : String} : m.Upsets (.gone node) other ↔ other = node := by
  constructor
  · intro upsets
    cases upsets with
    | shown shows => cases shows
    | gone => rfl
  · rintro rfl
    exact .gone

theorem steady_iff {since : Option Instant} (ready : n.ReadySince since) :
    m.Steady n now ↔ m.isStable since now = true := by
  have stable_iff : m.isStable since now = true ↔ ∀ seconds,
      m.health.recovery = .afterStable seconds →
        Duration.ofSeconds seconds ≤ (since.map now.since).getD {} := by
    unfold isStable
    cases hpolicy : m.health.recovery with
    | afterStable seconds => cases since <;> simp
    | immediate => simp
    | disabled => simp
  rw [stable_iff]
  constructor
  · rintro ⟨since', ready', long⟩
    exact ready.unique ready' ▸ long
  · exact fun long => ⟨since, ready, long⟩

/-! ### Which nodes have settled does not matter for that -/

namespace Becomes

theorem symm (h : m.Becomes m') : m'.Becomes m := by
  obtain ⟨_, rfl⟩ := h
  exact ⟨m.settled, rfl⟩

theorem shows (h : m.Becomes m') (hs : m'.Shows notice n now) : m.Shows notice n now := by
  obtain ⟨_, rfl⟩ := h
  cases hs with
  | seen => exact .seen
  | known heeded about policy => exact .known ⟨heeded.warns, heeded.listed⟩ about policy

theorem steady (h : m.Becomes m') (hs : m'.Steady n now) : m.Steady n now := by
  obtain ⟨_, rfl⟩ := h
  exact hs

theorem upsets (h : m.Becomes m') (hu : m'.Upsets notice node) : m.Upsets notice node := by
  cases hu with
  | shown shows unready => exact .shown (h.shows shows) unready
  | gone => exact .gone

theorem recovers (h : m.Becomes m') (hr : m'.Recovers notice outcome node) :
    m.Recovers notice outcome node := by
  obtain ⟨⟨n, now, shows, hname, steady⟩, succeeds⟩ := hr
  exact ⟨⟨n, now, h.shows shows, hname, h.steady steady⟩, succeeds⟩

end Becomes

/-! ### What one signal does to the memory -/

/-- What a monitor does about a signal, as far as its memory goes: it looks at a node, or a node is
gone, or its memory stays as it is. -/
inductive View (m : Monitor) (notice : Notice) : Reaction → Prop
  | looks {n : Node} {now : Instant} (shows : m.Shows notice n now) :
      View m notice (m.observe n now)
  | ends {node : String} (gone : notice = .gone node) : View m notice (m.deleted node)
  | aside {p : MonitorStore.Action MonitorAction} (blind : ∀ n now, ¬ m.Shows notice n now)
      (stays : ∀ node, notice ≠ .gone node) :
      View m notice (p.bind fun outcome => .done (outcome, m))

theorem react_view (m : Monitor) (notice : Notice) : m.View notice (m.react notice) := by
  cases notice with
  | seen n now => exact .looks .seen
  | gone node => exact .ends rfl
  | event e known now =>
      have stays (node) : Notice.event e known now ≠ .gone node := by
        intro heq
        cases heq
      have idle (blind : ∀ n now', ¬ m.Shows (.event e known now) n now') :
          m.View (.event e known now) (.done (.ok .none, m)) :=
        .aside (p := .done (.ok .none)) blind stays
      simp only [react, problem]
      by_cases hheeds : m.heeds e = true
      · rw [if_pos hheeds]
        cases habout : e.node? with
        | none =>
            refine idle fun n now' shows => ?_
            cases shows with
            | known heeded about policy => cases habout.symm.trans about
        | some source =>
            dsimp only
            split
            · next fences =>
                refine .aside (fun n now' shows => ?_) stays
                cases shows with
                | known heeded about policy => cases fences.symm.trans policy
            · next looks =>
                cases known with
                | none =>
                    refine idle fun n now' shows => ?_
                    cases shows
                | some n =>
                    exact .looks (.known ((m.heeds_iff e).mp hheeds) habout
                      (Bool.eq_false_iff.mpr looks))
      · rw [if_neg hheeds]
        refine idle fun n now' shows => ?_
        cases shows with
        | known heeded about policy => exact hheeds ((m.heeds_iff e).mpr heeded)

/-- What a monitor does about a signal that shows a node. -/
theorem Shows.react (shows : m.Shows notice n now) : m.react notice = m.observe n now := by
  generalize hreact : m.react notice = reaction
  cases hreact ▸ m.react_view notice with
  | looks shows' =>
      obtain ⟨rfl, rfl⟩ := shows.unique shows'
      rfl
  | ends gone =>
      rw [gone] at shows
      cases shows
  | aside blind => exact absurd shows (blind n now)

/-- A node that is looked at is ready, and that is taken as its recovery, or else it is not settled
any more. -/
theorem observe_view (m : Monitor) (n : Node) (now : Instant) :
    (∃ since, n.ReadySince since ∧
      m.observe n now = m.recovered n.metadata.nameOrBase since now) ∨
    ((∀ since, ¬ n.ReadySince since) ∧ ∃ p : MonitorStore.Action MonitorAction, m.observe n now =
      p.bind fun outcome => .done (outcome, m.unsettle n.metadata.nameOrBase)) := by
  have unready (hother : ∀ since, n.health now m.health.window ≠ .healthy since) (since) :
      ¬ n.ReadySince since :=
    fun ready => hother since (Node.readySince_iff.mp ready)
  unfold observe
  cases hhealth : n.health now m.health.window with
  | healthy since => exact .inl ⟨since, Node.readySince_iff.mpr hhealth, rfl⟩
  | failed since => exact .inr ⟨unready (by simp [hhealth]), _, rfl⟩
  | suspect remaining =>
      exact .inr ⟨unready (by simp [hhealth]), .done (.ok (.suspect remaining)), rfl⟩
  | notReady => exact .inr ⟨unready (by simp [hhealth]), .done (.ok .none), rfl⟩
  | unknown => exact .inr ⟨unready (by simp [hhealth]), .done (.ok .none), rfl⟩

/-- A program after which a monitor is left in some state. -/
theorem left_as {p : MonitorStore.Action MonitorAction} {m'' : Monitor}
    (h : Program.Goes R w₀ (p.bind fun outcome => .done (outcome, m'')) had w
      (.done (outcome, m'))) : m' = m'' := by
  obtain ⟨_, _, _, _, -, hlast, -⟩ := h.split_done
  obtain ⟨-, hdone⟩ := hlast.of_done
  cases hdone
  rfl

/-- A node that is ready is settled afterwards if it has been ready for long enough and nothing has
failed.  Other nodes, and those that were settled before, stay as they are. -/
theorem recovered_settled {since : Option Instant} (other : String)
    (h : Program.Goes R w₀ (m.recovered node since now) had w (.done (outcome, m'))) :
    m'.isSettled other = true ↔
      (other = node ∧ m.isStable since now = true ∧ ∃ action, outcome = .ok action) ∨
        m.isSettled other = true := by
  unfold recovered at h
  split at h
  · next settled =>
      obtain ⟨-, hdone⟩ := h.of_done
      cases hdone
      exact ⟨.inr, fun h => h.elim (fun ⟨same, _⟩ => same ▸ settled) id⟩
  · split at h
    · next disabled =>
        obtain ⟨-, hdone⟩ := h.of_done
        cases hdone
        simp [isStable, disabled]
    · split at h
      · next unstable =>
          obtain ⟨-, hdone⟩ := h.of_done
          cases hdone
          simp_all
      · next stable =>
          obtain ⟨_, _, result, _, -, hlast, -⟩ := h.split_done
          cases result with
          | ok action =>
              obtain ⟨-, hdone⟩ := hlast.of_done
              cases hdone
              simp_all
          | error e =>
              obtain ⟨-, hdone⟩ := hlast.of_done
              cases hdone
              simp

/-- A node that is gone is not settled any more. -/
theorem left_deleted (h : Program.Goes R w₀ (m.deleted node) had w (.done (outcome, m'))) :
    m' = m.unsettle node := by
  unfold deleted at h
  dsimp only at h
  split at h
  · obtain ⟨-, hdone⟩ := h.of_done
    cases hdone
    rfl
  · exact left_as h

/-- **What one signal does to the settled nodes**: the node whose recovery it completes is settled,
and the node that it upsets is not. -/
theorem react_settled (h : Program.Goes R w₀ (m.react notice) had w (.done (outcome, m')))
    (node : String) : m'.isSettled node = true ↔
      m.Recovers notice outcome node ∨ (m.isSettled node = true ∧ ¬ m.Upsets notice node) := by
  generalize hreact : m.react notice = reaction at h
  cases hreact ▸ m.react_view notice with
  | @looks n now shows =>
      rw [shows.recovers_iff, shows.upsets_iff]
      obtain ⟨since, ready, hobserve⟩ | ⟨unready, p, hobserve⟩ := m.observe_view n now
      · rw [hobserve] at h
        rw [recovered_settled node h, steady_iff ready]
        have calm : ¬ ∀ since, ¬ n.ReadySince since := fun unready => unready since ready
        simp only [calm, and_false, not_false_eq_true, and_true]
      · rw [hobserve] at h
        obtain rfl := left_as h
        have unsteady : ¬ m.Steady n now := fun ⟨since, ready, _⟩ => unready since ready
        simp only [isSettled_unsettle, unsteady, false_and, and_false, false_or, unready,
          not_false_eq_true, implies_true, and_true, ne_eq]
  | @ends gone_node gone =>
      subst gone
      have recovers : ¬ m.Recovers (.gone gone_node) outcome node :=
        fun ⟨⟨_, _, shows, _⟩, _⟩ => nomatch shows
      rw [left_deleted h, upsets_gone_iff, isSettled_unsettle]
      simp only [recovers, false_or, ne_eq]
  | aside blind stays =>
      have recovers : ¬ m.Recovers notice outcome node :=
        fun ⟨⟨n, now, shows, _⟩, _⟩ => blind n now shows
      have calm : ¬ m.Upsets notice node := by
        intro upsets
        cases upsets with
        | shown shows => exact blind _ _ shows
        | gone => exact stays _ rfl
      rw [left_as h]
      simp only [recovers, calm, false_or, not_false_eq_true, and_true]

/-- A signal that is not about a node leaves it settled or not, as it was. -/
theorem react_elsewhere (h : Program.Goes R w₀ (m.react notice) had w (.done (outcome, m')))
    (stays : notice ≠ .gone node)
    (elsewhere : ∀ n now, m.Shows notice n now → n.metadata.nameOrBase ≠ node) :
    m'.isSettled node = true ↔ m.isSettled node = true := by
  have recovers : ¬ m.Recovers notice outcome node :=
    fun ⟨⟨n, now, shows, hname, _⟩, _⟩ => elsewhere n now shows hname
  have calm : ¬ m.Upsets notice node := by
    intro upsets
    cases upsets with
    | shown shows => exact elsewhere _ _ shows rfl
    | gone => exact stays rfl
  rw [react_settled h node]
  simp only [recovers, calm, false_or, not_false_eq_true, and_true]

/-! ### Listings -/

/-- A listing of the requests for a node, whatever has come of it. -/
def Lists (node : String) (x : Exchange MonitorStore W) : Prop :=
  x.call = MonitorCall.requestsFor node

/-- A withdrawal that has come to its end has listed the requests for its node, and has failed if
the listing did. -/
theorem cancel_lists {R : Rules MonitorStore (Except TaskError MonitorAction) W}
    (h : Program.Goes R w₀ (m.cancel node).run had w (.done outcome)) :
    (∃ x ∈ had, Lists node x) ∧
      ∀ x ∈ had, Lists node x → x.succeeded = false → ∃ e, outcome = .error e := by
  obtain ⟨-, hunfinished⟩ | ⟨v, e, v', rfl, hdone⟩ | ⟨listed, v, v', w₁, deletions, rfl, hgoes⟩ :=
    cancel_goes h
  · exact absurd rfl (hunfinished outcome)
  · cases hdone
    exact ⟨⟨_, List.mem_singleton_self _, rfl⟩, fun _ _ _ _ => ⟨e, rfl⟩⟩
  · have limited : (m.withdraw (listed.filter (isOutstanding node))).Keeps
        (.limits W fun c => ∃ name, c = MonitorCall.deleteRequest name) (fun _ _ => True) w₁ :=
      withdraw_keeps trivial fun _ _ r _ => ⟨r.name, rfl⟩
    refine ⟨⟨_, List.mem_cons_self .., rfl⟩, fun x hx lists failed => ?_⟩
    rcases List.mem_cons.mp hx with rfl | hdeletion
    · cases failed
    · obtain ⟨name, deletes⟩ := (limited.within hgoes).1 x hdeletion
      cases deletes.symm.trans lists

/-- **When the requests for a node that is ready are listed**: if its recovery is acted on, is not
settled and is steady.  If the listing fails, then so does the handling of the signal. -/
theorem observe_lists {since : Option Instant} (ready : n.ReadySince since)
    (h : Program.Goes R w₀ (m.observe n now) had w (.done (outcome, m'))) :
    ((∃ x ∈ had, Lists n.metadata.nameOrBase x) ↔ m.health.recovery ≠ .disabled ∧
      ¬ m.isSettled n.metadata.nameOrBase = true ∧ m.Steady n now) ∧
    ∀ x ∈ had, Lists n.metadata.nameOrBase x → x.succeeded = false → ∃ e, outcome = .error e := by
  obtain ⟨since', ready', hobserve⟩ | ⟨unready, -⟩ := m.observe_view n now
  · obtain rfl := ready.unique ready'
    rw [hobserve] at h
    rw [steady_iff ready]
    unfold recovered at h
    split at h
    · next settled =>
        obtain ⟨rfl, -⟩ := h.of_done
        simp [settled]
    · next unsettled =>
        split at h
        · next disabled =>
            obtain ⟨rfl, -⟩ := h.of_done
            simp [disabled]
        · next enabled =>
            split at h
            · next unstable =>
                obtain ⟨rfl, -⟩ := h.of_done
                simp_all
            · next stable =>
                obtain ⟨first, _, result, last, hfirst, hlast, rfl⟩ := h.split_done
                obtain ⟨listed, failing⟩ := cancel_lists hfirst
                have stable : m.isStable since now = true := by simpa using stable
                cases result with
                | ok action =>
                    obtain ⟨rfl, -⟩ := hlast.of_done
                    rw [List.append_nil]
                    refine ⟨iff_of_true listed ⟨enabled, unsettled, stable⟩, fun x hx hl hf => ?_⟩
                    obtain ⟨e, herror⟩ := failing x hx hl hf
                    cases herror
                | error e =>
                    obtain ⟨rfl, hdone⟩ := hlast.of_done
                    cases hdone
                    rw [List.append_nil]
                    exact ⟨iff_of_true listed ⟨enabled, unsettled, stable⟩, failing⟩
  · exact absurd ready (unready since)

/-! ### A whole run -/

/-- Any part of a run that begins with it is a run, and the next signal is handled after that. -/
theorem Attends.until (h : m₀.Attends R w₀ past w rest) {before after : List (Handling W)}
    {t : Handling W} (hpast : past = before ++ t :: after) :
    ∃ w₁ w₂ outcome, m₀.Attends R w₀ before w₁ (.done (outcome, t.monitor)) ∧
      Program.Goes R w₁ (t.monitor.react t.notice) t.exchanges w₂ t.rest := by
  induction h generalizing after with
  | begun => cases before <;> cases hpast
  | @handles past w outcome m notice exchanges w' rest h goes ih =>
      rcases List.eq_nil_or_concat after with rfl | ⟨front, last, rfl⟩
      · obtain ⟨rfl, hlast⟩ := List.append_inj' hpast rfl
        cases hlast
        exact ⟨w, w', outcome, h, goes⟩
      · rw [List.concat_eq_append, ← List.cons_append, ← List.append_assoc] at hpast
        exact ih (List.append_inj' hpast rfl).1

theorem settledBy_append (t : Handling W) : m.SettledBy (past ++ [t]) node ↔
    m.Completes t node ∨ (m.SettledBy past node ∧ ¬ m.Upsets t.notice node) := by
  constructor
  · rintro ⟨before, u, after, hsplit, completes, calm⟩
    rcases List.eq_nil_or_concat after with rfl | ⟨front, last, rfl⟩
    · obtain ⟨-, hlast⟩ := List.append_inj' hsplit rfl
      cases hlast
      exact .inl completes
    · rw [List.concat_eq_append, ← List.cons_append, ← List.append_assoc] at hsplit
      obtain ⟨rfl, hlast⟩ := List.append_inj' hsplit rfl
      cases hlast
      rw [List.concat_eq_append] at calm
      exact .inr ⟨⟨before, u, front, rfl, completes,
        fun v hv => calm v (List.mem_append_left _ hv)⟩,
        calm t (List.mem_append_right _ (List.mem_singleton_self _))⟩
  · rintro (completes | ⟨⟨before, u, after, rfl, completes, calm⟩, stays⟩)
    · exact ⟨past, t, [], rfl, completes, fun u hu => absurd hu List.not_mem_nil⟩
    · refine ⟨before, u, after ++ [t], by simp, completes, fun v hv => ?_⟩
      rcases List.mem_append.mp hv with hold | hnew
      · exact calm v hold
      · exact List.mem_singleton.mp hnew ▸ stays

/-- The nodes that are settled after some signals were handled. -/
theorem Attends.settled_iff (h : m₀.Attends R w₀ past w (.done (outcome, m)))
    (fresh : m₀.settled = []) (node : String) :
    m.isSettled node = true ↔ m₀.SettledBy past node := by
  generalize hrest : (.done (outcome, m) : Reaction) = rest at h
  induction h generalizing outcome m with
  | begun =>
      cases hrest
      simp [isSettled, fresh, SettledBy]
  | @handles past w outcome₁ m₁ notice exchanges w' rest h goes ih =>
      subst hrest
      have same : m₀.Becomes m₁ := h.handled.1 outcome₁ m₁ rfl
      have recovers_iff : m₀.Completes ⟨m₁, notice, exchanges, .done (outcome, m)⟩ node ↔
          m₁.Recovers notice outcome node := by
        constructor
        · rintro ⟨outcome', m', hdone, recovers⟩
          cases hdone
          exact same.symm.recovers recovers
        · exact fun recovers => ⟨outcome, m, rfl, same.recovers recovers⟩
      have upsets_iff : m₀.Upsets notice node ↔ m₁.Upsets notice node :=
        ⟨same.symm.upsets, same.upsets⟩
      rw [settledBy_append, recovers_iff, upsets_iff, react_settled goes node, ih rfl]

/-- A node stays open while no recovery of it is completed. -/
theorem not_settledBy_append {more : List (Handling W)} (unsettled : ¬ m.SettledBy past node)
    (incomplete : ∀ t ∈ more, ¬ m.Completes t node) : ¬ m.SettledBy (past ++ more) node := by
  induction more generalizing past with
  | nil => rwa [List.append_nil]
  | cons t more ih =>
      rw [List.append_cons]
      refine ih (fun settled => ?_) fun u hu => incomplete u (List.mem_cons_of_mem _ hu)
      rcases (settledBy_append t).mp settled with completes | ⟨settled, -⟩
      · exact incomplete t (List.mem_cons_self ..) completes
      · exact unsettled settled

/-- A signal that shows a node ready, and was handled to its end. -/
structure Greets (m : Monitor) (t : Handling W) (n : Node) (now : Instant) : Prop where
  shows : m.Shows t.notice n now
  ready : ∃ since, n.ReadySince since
  handled : ∃ outcome m', t.rest = .done (outcome, m')

theorem Completes.greets {t : Handling W} (h : m.Completes t node) :
    ∃ n now, m.Greets t n now ∧ n.metadata.nameOrBase = node := by
  obtain ⟨outcome, m', hdone, ⟨n, now, shows, hname, since, ready, -⟩, -⟩ := h
  exact ⟨n, now, ⟨shows, ⟨since, ready⟩, outcome, m', hdone⟩, hname⟩

/-- A signal that shows a node ready, as it is handled in a run. -/
theorem Attends.greeted (h : m₀.Attends R w₀ past w rest) (fresh : m₀.settled = [])
    {before after : List (Handling W)} {t : Handling W} (hpast : past = before ++ t :: after)
    (greets : m₀.Greets t n now) :
    ((∃ x ∈ t.exchanges, Lists n.metadata.nameOrBase x) ↔ m₀.health.recovery ≠ .disabled ∧
      ¬ m₀.SettledBy before n.metadata.nameOrBase ∧ m₀.Steady n now) ∧
    ((∃ x ∈ t.exchanges, Lists n.metadata.nameOrBase x ∧ x.succeeded = false) →
      ¬ m₀.Completes t n.metadata.nameOrBase) := by
  obtain ⟨w₁, w₂, outcome₁, attends, goes⟩ := h.until hpast
  obtain ⟨shows, ⟨since, ready⟩, outcome, m', hdone⟩ := greets
  have same : m₀.Becomes t.monitor := attends.handled.1 _ _ rfl
  rw [(same.symm.shows shows).react, hdone] at goes
  obtain ⟨lists_iff, failing⟩ := observe_lists ready goes
  have hpolicy : t.monitor.health = m₀.health := by
    obtain ⟨_, hsame⟩ := same
    rw [hsame]
  have steady_iff : t.monitor.Steady n now ↔ m₀.Steady n now := ⟨same.steady, same.symm.steady⟩
  rw [hpolicy, attends.settled_iff fresh, steady_iff] at lists_iff
  refine ⟨lists_iff, fun ⟨x, hx, lists, failed⟩ ⟨_, _, hdone', _, action, hok⟩ => ?_⟩
  obtain ⟨e, herror⟩ := failing x hx lists failed
  cases hdone.symm.trans hdone'
  cases herror.symm.trans hok

/-- A node whose listing has failed stays open until a signal shows it ready again. -/
theorem Attends.stays_open (h : m₀.Attends R w₀ past w rest) (fresh : m₀.settled = [])
    {before after between : List (Handling W)} {t : Handling W}
    (hpast : past = before ++ t :: after) (greets : m₀.Greets t n now)
    (failed : ∃ x ∈ t.exchanges, Lists n.metadata.nameOrBase x ∧ x.succeeded = false)
    (quiet : ∀ v ∈ between, ∀ n' now', m₀.Greets v n' now' →
      n'.metadata.nameOrBase ≠ n.metadata.nameOrBase) :
    m₀.health.recovery ≠ .disabled ∧
      ¬ m₀.SettledBy (before ++ t :: between) n.metadata.nameOrBase := by
  obtain ⟨lists_iff, incomplete⟩ := h.greeted fresh hpast greets
  have ⟨x, hx, lists, _⟩ := failed
  obtain ⟨enabled, unsettled, -⟩ := lists_iff.mp ⟨x, hx, lists⟩
  refine ⟨enabled, not_settledBy_append unsettled fun v hv completes => ?_⟩
  rcases List.mem_cons.mp hv with rfl | hbetween
  · exact incomplete failed completes
  · obtain ⟨n', now', greets', hname'⟩ := completes.greets
    exact quiet v hbetween n' now' greets' hname'

/-- **A recovery is dealt with once.**  However the calls of a monitor are answered, and whatever
signals it gets about whichever nodes: before every signal and at the end, a node is settled if and
only if its recovery was completed and the node was not upset since.  So, when a signal shows a node
ready, the requests for the node are listed if and only if recoveries are acted on, this one was not
completed before, and it is steady.  If that listing has failed, then it is tried again with the
next signal that shows the node ready and steady.  A signal that is not about a node leaves it
settled or not settled, as it was. -/
theorem Attends.recovers_once (h : m₀.Attends R w₀ past w rest) (fresh : m₀.settled = []) :
    (∀ outcome m, rest = .done (outcome, m) →
      ∀ node, m.isSettled node = true ↔ m₀.SettledBy past node) ∧
    ∀ before t after, past = before ++ t :: after →
      (∀ node, t.monitor.isSettled node = true ↔ m₀.SettledBy before node) ∧
      (∀ n now, m₀.Greets t n now →
        ((∃ x ∈ t.exchanges, Lists n.metadata.nameOrBase x) ↔ m₀.health.recovery ≠ .disabled ∧
          ¬ m₀.SettledBy before n.metadata.nameOrBase ∧ m₀.Steady n now)) ∧
      (∀ n now between u later n' now', m₀.Greets t n now →
        (∃ x ∈ t.exchanges, Lists n.metadata.nameOrBase x ∧ x.succeeded = false) →
        after = between ++ u :: later →
        (∀ v ∈ between, ∀ n'' now'', m₀.Greets v n'' now'' →
          n''.metadata.nameOrBase ≠ n.metadata.nameOrBase) →
        m₀.Greets u n' now' → n'.metadata.nameOrBase = n.metadata.nameOrBase →
        ((∃ x ∈ u.exchanges, Lists n.metadata.nameOrBase x) ↔ m₀.Steady n' now')) ∧
      ∀ node outcome m', t.rest = .done (outcome, m') → t.notice ≠ .gone node →
        (∀ n now, m₀.Shows t.notice n now → n.metadata.nameOrBase ≠ node) →
        (m'.isSettled node = true ↔ t.monitor.isSettled node = true) := by
  refine ⟨fun outcome m hrest node => ?_, fun before t after hpast => ⟨?_, ?_, ?_, ?_⟩⟩
  · subst hrest
    exact h.settled_iff fresh node
  · obtain ⟨w₁, w₂, outcome, attends, -⟩ := h.until hpast
    exact attends.settled_iff fresh
  · exact fun n now greets => (h.greeted fresh hpast greets).1
  · rintro n now between u later n' now' greets failed hafter quiet greets' hname
    obtain ⟨enabled, unsettled⟩ := h.stays_open fresh hpast greets failed quiet
    have hsplit : past = (before ++ t :: between) ++ u :: later := by
      rw [hpast, hafter, List.append_assoc, List.cons_append]
    have again := (h.greeted fresh hsplit greets').1
    rw [hname] at again
    rw [again]
    exact ⟨fun h => h.2.2, fun steady => ⟨enabled, unsettled, steady⟩⟩
  · intro node outcome m' hdone stays elsewhere
    obtain ⟨w₁, w₂, outcome₁, attends, goes⟩ := h.until hpast
    have same : m₀.Becomes t.monitor := attends.handled.1 _ _ rfl
    rw [hdone] at goes
    exact react_elsewhere goes stays fun n now shows => elsewhere n now (same.shows shows)

/-- A node is seen ready twice.  The first listing of its requests fails, so it is tried again. -/
theorem recovers_once_retried : ∃ (t u : Handling MonitorMemory) (w : MonitorMemory) (m : Monitor),
    (({} : Monitor).Attends MonitorMemory.shared {} [t, u] w (.done (.ok .none, m)) ∧
      ({} : Monitor).settled = []) ∧
    (∃ x ∈ t.exchanges, Lists "rack-1" x ∧ x.succeeded = false) ∧
    (∃ x ∈ u.exchanges, Lists "rack-1" x) ∧ ({} : Monitor).SettledBy [t, u] "rack-1" := by
  have seen : Program.Goes MonitorMemory.shared {} (react {} (.seen (ready "rack-1") ⟨60, 0⟩)) [] {}
      (react {} (.seen (ready "rack-1") ⟨60, 0⟩)) := .begun
  have failed := Program.Goes.calls (R := MonitorMemory.shared) seen
    (.refuses (.api .unintelligible))
  have again : Program.Goes MonitorMemory.shared {} (react {} (.seen (ready "rack-1") ⟨70, 0⟩)) []
      {} (react {} (.seen (ready "rack-1") ⟨70, 0⟩)) := .begun
  have listed := Program.Goes.calls (R := MonitorMemory.shared) again .works
  have attends := (Attends.begun.handles failed).handles listed
  have isReady : (ready "rack-1").ReadySince (some ⟨0, 0⟩) := ⟨_, rfl, rfl, rfl⟩
  have failing : ∃ x ∈ [(⟨{}, MonitorCall.requestsFor "rack-1",
      (Except.error (.api .unintelligible) : Except TaskError _), {}⟩ :
        Exchange MonitorStore MonitorMemory)], Lists "rack-1" x ∧ x.succeeded = false :=
    ⟨_, List.mem_singleton_self _, rfl, rfl⟩
  obtain ⟨settled_iff, listings⟩ := attends.recovers_once rfl
  obtain ⟨-, -, retried, -⟩ := listings [] _ _ rfl
  have lists := (retried (ready "rack-1") ⟨60, 0⟩ [] _ [] (ready "rack-1") ⟨70, 0⟩
    ⟨.seen, ⟨_, isReady⟩, _, _, rfl⟩ failing rfl (fun v hv => absurd hv List.not_mem_nil)
    ⟨.seen, ⟨_, isReady⟩, _, _, rfl⟩ rfl).mpr ⟨_, isReady, nofun⟩
  exact ⟨_, _, _, _, ⟨attends, rfl⟩, failing, lists, (settled_iff _ _ rfl "rack-1").mp rfl⟩

end Monitor

end NodeFencing
