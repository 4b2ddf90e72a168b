import Mathlib.Data.List.Forall2
import NodeFencing.Proofs.Monitor.Calls
import NodeFencing.Proofs.Monitor.Site

/-!
# What is withdrawn

Requests are deleted only because of a signal that clears a node, see `Monitor.Clears`, and
only those which a listing has just shown open and aimed at this very node: labels of
different nodes may be equal, so the listing may show others.  Each of these is tried
until it succeeds or the attempts are used up, whatever came of the ones before it, and
those that have succeeded are counted.

## Main Definitions

* `Exchange.succeeded` — a call that has not failed
* `Tried` — the attempts to delete one request
* `Monitor.Due` — a deletion that is called for
* `Monitor.Withdrawn` — all requests that are called for were tried

## Main statements

* `Monitor.deleteAll_tried` — one request after another is tried, whatever has failed
* `Monitor.react_due`, `Monitor.react_withdrawn` — how a signal is handled
* `Monitor.Attends.withdraws` — the same for every signal of a run
-/

namespace NodeFencing

variable {W : Type}

/-- A call that has not failed. -/
def Exchange.succeeded (x : Exchange MonitorStore W) : Bool :=
  Except.isOk (x.answer : Except TaskError x.call.Value)

/-- The attempts to delete a request: until one succeeds, or until so many have failed. -/
inductive Tried (name : String) : Nat → List (Exchange MonitorStore W) → Prop
  | succeeds {budget x} (deletes : x.call = .deleteRequest name) (succeeded : x.succeeded = true) :
      Tried name (budget + 1) [x]
  | exhausted {x} (deletes : x.call = .deleteRequest name) (failed : x.succeeded = false) :
      Tried name 1 [x]
  | again {budget x more} (deletes : x.call = .deleteRequest name) (failed : x.succeeded = false)
      (h : Tried name budget more) : Tried name (budget + 1) (x :: more)

namespace Monitor

variable {R : SiteRules W} {w₀ w : W} {m₀ m : Monitor} {notice : Notice} {node : String}
  {past : List (Handling W)} {rest : Reaction} {had : List (Exchange MonitorStore W)}

/-! ### Deletions -/

theorem delete_once {R : Rules MonitorStore (Except TaskError Unit) W} {name : String}
    {deleted : Except TaskError Unit}
    (h : Program.Goes R w₀ (MonitorStore.deleteRequest name) had w (.done deleted)) :
    ∃ before behind, had = [⟨before, MonitorCall.deleteRequest name, deleted, behind⟩] := by
  obtain ⟨-, hask⟩ | ⟨before, a, behind, rfl, hdone⟩ :=
    Program.Goes.of_ask (I := MonitorStore) (c := MonitorCall.deleteRequest name) h
  · cases hask
  · cases hdone
    exact ⟨before, behind, rfl⟩

theorem delete_tried {R : Rules MonitorStore (Except TaskError Unit) W} {b : Backoff}
    {name : String} {attempt more : Nat} {deleted : Except TaskError Unit}
    (h : Program.Goes R w₀ (Program.retryFrom b (MonitorStore.deleteRequest name) attempt more)
      had w (.done deleted)) :
    Tried name (more + 1) had ∧ had.any Exchange.succeeded = deleted.isOk := by
  induction more generalizing attempt w₀ had with
  | zero =>
      obtain ⟨before, behind, rfl⟩ := delete_once h
      refine ⟨?_, Bool.or_false _⟩
      match deleted with
      | .ok () => exact .succeeds rfl rfl
      | .error e => exact .exhausted rfl rfl
  | succ more ih =>
      obtain ⟨first, w₁, a, later, hfirst, hlater, rfl⟩ := h.split_done
      obtain ⟨before, behind, rfl⟩ := delete_once hfirst
      match a with
      | .ok () =>
        obtain ⟨rfl, hdone⟩ := hlater.of_done
        cases hdone
        exact ⟨.succeeds rfl rfl, rfl⟩
      | .error e =>
        obtain ⟨-, hpause⟩ | ⟨w₂, hagain⟩ := hlater.of_pause
        · cases hpause
        · obtain ⟨tried, hresult⟩ := ih hagain
          exact ⟨.again rfl rfl tried, hresult⟩

/-- **One request after another** is tried, whatever came of those before it, and the ones that
were deleted are counted. -/
theorem deleteAll_tried {R : Rules MonitorStore Nat W} {requests : List Request} {count : Nat}
    (h : Program.Goes R w₀ (m.deleteAll requests) had w (.done count)) :
    ∃ blocks, had = blocks.flatten ∧
      List.Forall₂ (fun r block => Tried r.name m.backoff.attempts block) requests blocks ∧
      count = blocks.countP (·.any Exchange.succeeded) := by
  induction requests generalizing R w₀ w had count with
  | nil =>
      obtain ⟨rfl, hdone⟩ := h.of_done
      cases hdone
      exact ⟨[], rfl, .nil, rfl⟩
  | cons r requests ih =>
      -- The others are tried whatever `deleted` is; only the count looks at it.
      obtain ⟨block, w₁, deleted, later, hfirst, hlater, rfl⟩ := h.split_done
      obtain ⟨others, w₂, count', last, hothers, hlast, rfl⟩ := hlater.split_done
      obtain ⟨rfl, hdone⟩ := hlast.of_done
      obtain ⟨tried, hresult⟩ := delete_tried hfirst
      have hattempts : m.backoff.attempts - 1 + 1 = m.backoff.attempts :=
        Nat.sub_add_cancel (Nat.le_max_right _ _)
      rw [hattempts] at tried
      obtain ⟨blocks, rfl, hblocks, rfl⟩ := ih hothers
      refine ⟨block :: blocks, by simp, .cons tried hblocks, ?_⟩
      rw [List.countP_cons, hresult]
      cases deleted <;> cases hdone <;> rfl

/-! ### How a signal is handled -/

/-- A listing of the requests for a node. -/
def listing (node : String) (listed : List Request) (before behind : W) :
    Exchange MonitorStore W :=
  ⟨before, MonitorCall.requestsFor node, (Except.ok listed : Except TaskError _), behind⟩

/-- A deletion that is called for.  The signal clears a node, and before this call there was nothing
but a listing, which shows an open request of this name for this very node, and deletions. -/
def Due (m : Monitor) (notice : Notice) (before : List (Exchange MonitorStore W)) (name : String) :
    Prop :=
  ∃ node listed v v' deletions, m.Clears notice node ∧
    before = listing node listed v v' :: deletions ∧
    (∀ x ∈ deletions, ∃ other, x.call = .deleteRequest other) ∧
    ∃ r ∈ listed, r.name = name ∧ r.target = node ∧ r.isComplete = false

/-- All requests that are to be deleted were tried, one after another.  The signal clears a node,
and those are the requests that a listing shows open and aimed at this very node. -/
def Withdrawn (m : Monitor) (notice : Notice) (exchanges : List (Exchange MonitorStore W))
    (count : Nat) : Prop :=
  ∃ node listed v v' blocks, m.Clears notice node ∧
    exchanges = listing node listed v v' :: blocks.flatten ∧
    List.Forall₂ (fun r block => Tried r.name m.backoff.attempts block)
      (listed.filter (isOutstanding node)) blocks ∧
    count = blocks.countP (·.any Exchange.succeeded)

/-- The run of a withdrawal: its listing is under way, or has failed, or has shown what is to be
deleted. -/
theorem cancel_goes {R : Rules MonitorStore (Except TaskError MonitorAction) W}
    {q : MonitorStore.Action MonitorAction}
    (h : Program.Goes R w₀ (m.cancel node).run had w q) :
    (had = [] ∧ ∀ outcome, q ≠ .done outcome) ∨
      (∃ v e v',
        had = [⟨v, MonitorCall.requestsFor node, (Except.error e : Except TaskError _), v'⟩] ∧
        q = .done (.error e)) ∨
      ∃ listed v v' w₁ deletions, had = listing node listed v v' :: deletions ∧
        Program.Goes R w₁ (m.withdraw (listed.filter (isOutstanding node))) deletions w q := by
  rw [cancel_run] at h
  cases h.split with
  | first hp' going hq =>
      obtain ⟨rfl, rfl⟩ | ⟨before, a, behind, -, rfl⟩ :=
        Program.Goes.of_ask (I := MonitorStore) (c := MonitorCall.requestsFor node) hp'
      · refine .inl ⟨rfl, fun outcome hdone => ?_⟩
        cases hq.symm.trans hdone
      · exact absurd rfl (going a)
  | @second before w₁ listed behind h₁ h₂ hhad =>
      obtain ⟨-, hask⟩ | ⟨v, a, v', rfl, hdone⟩ :=
        Program.Goes.of_ask (I := MonitorStore) (c := MonitorCall.requestsFor node) h₁
      · cases hask
      · cases hdone
        match listed with
        | .error e =>
          obtain ⟨rfl, hdone⟩ := h₂.of_done
          exact .inr (.inl ⟨v, e, v', hhad, hdone⟩)
        | .ok listed => exact .inr (.inr ⟨listed, v, v', w₁, behind, hhad, h₂⟩)

/-- A call that deletes a request. -/
def Deletes (x : Exchange MonitorStore W) : Prop :=
  ∃ name, x.call = MonitorCall.deleteRequest name

/-- A listing deletes nothing. -/
theorem of_listing {x : Exchange MonitorStore W} {p : Prop}
    (lists : x.call = MonitorCall.requestsFor node) (h : (∃ y ∈ [x], Deletes y) ∨ p) : p := by
  refine h.resolve_left ?_
  rintro ⟨y, hy, name, deletes⟩
  rw [List.mem_singleton.mp hy, lists] at deletes
  cases deletes

/-- The contract under which nothing is deleted. -/
def deletingNothing (W : Type) : Contract MonitorStore W :=
  .limits W fun c => ∀ name, c ≠ MonitorCall.deleteRequest name

/-- Asking for a node to be fenced deletes nothing, and does not say that something was deleted. -/
theorem raise_deletes_nothing {R : Rules MonitorStore (Except TaskError MonitorAction) W}
    {origin : String} {now : Instant} {q : MonitorStore.Action MonitorAction}
    (h : Program.Goes R w₀ (m.raise node origin now).run had w q) :
    (∀ x ∈ had, ¬ Deletes x) ∧
      ∀ outcome, q = .done outcome → ∀ k, outcome ≠ .ok (.cancelled k) := by
  have asks : (m.raise node origin now).run.Keeps (deletingNothing W)
      (Raised (deletingNothing W) w₀ m node origin now) w₀ := by
    refine raise_keeps trivial ?_ ?_ ?_
    · exact fun name h => nomatch h
    · exact fun w' _ name h => nomatch h
    · exact fun w' listed workloads _ _ name h => nomatch h
  have keeps : (m.raise node origin now).run.Keeps (deletingNothing W)
      (fun _ outcome => ∀ k, outcome ≠ .ok (.cancelled k)) w₀ := by
    refine asks.weaken trivial ?_
    rintro w' outcome - raised k rfl
    cases raised with
    | proposed h => exact h
  obtain ⟨hcalls, hresult⟩ := keeps.within h
  exact ⟨fun x hx ⟨name, hname⟩ => hcalls x hx name hname, hresult⟩

/-- A signal because of which something is deleted clears a node, and the calls are those of a
withdrawal for this node. -/
theorem react_cancels (h : Program.Goes R w₀ (m.react notice) had w rest)
    (hdel : (∃ x ∈ had, Deletes x) ∨ ∃ k m', rest = .done (.ok (.cancelled k), m')) :
    ∃ node w' p, m.Clears notice node ∧
      Program.Goes (R.serving _) w₀ (m.cancel node).run had w' p ∧
      ∀ outcome m', rest = .done (outcome, m') → p = .done outcome := by
  generalize hreact : m.react notice = reaction at h
  cases hreact ▸ m.plan notice with
  | rests quiet same =>
      obtain ⟨rfl, rfl⟩ := h.of_done
      obtain ⟨x, hx, -⟩ | ⟨k, m', hdone⟩ := hdel
      · exact absurd hx List.not_mem_nil
      · cases hdone
        obtain hnone | ⟨_, hsuspect⟩ := quiet
        · cases hnone
        · cases hsuspect
  | raises grounds same =>
      obtain ⟨w', p, hraise, hend⟩ := h.split_ending fun _ => ⟨_, rfl⟩
      obtain ⟨hcalls, hresult⟩ := raise_deletes_nothing hraise
      obtain ⟨x, hx, deletes⟩ | ⟨k, m', hdone⟩ := hdel
      · exact absurd deletes (hcalls x hx)
      · obtain ⟨outcome, hp, heq⟩ := hend _ hdone
        cases heq
        exact absurd rfl (hresult _ hp k)
  | @cancels node after clears ends =>
      have atonce (outcome) : ∃ result, after outcome = .done result :=
        (ends outcome).imp' (outcome, ·) fun _ h => h.1
      obtain ⟨w', p, hcancel, hend⟩ := h.split_ending atonce
      refine ⟨node, w', p, clears, hcancel, fun outcome m' hdone => ?_⟩
      obtain ⟨outcome', hp, hafter⟩ := hend _ hdone
      obtain ⟨m'', hafter', -⟩ := ends outcome'
      cases hafter'.symm.trans hafter
      exact hp

/-- **A deletion because of a signal** is called for. -/
theorem react_due (h : Program.Goes R w₀ (m.react notice) had w rest)
    {before behind : List (Exchange MonitorStore W)} {x : Exchange MonitorStore W}
    (hhad : had = before ++ x :: behind) {name : String} (hx : x.call = .deleteRequest name) :
    m.Due notice before name := by
  have hmem : x ∈ had := by
    rw [hhad]
    exact List.mem_append_right _ (List.mem_cons_self ..)
  obtain ⟨node, w', p, clears, hcancel, -⟩ := react_cancels h (.inl ⟨x, hmem, name, hx⟩)
  obtain ⟨rfl, -⟩ | ⟨v, e, v', rfl, -⟩ | ⟨listed, v, v', w₁, deletions, rfl, hdel⟩ :=
    cancel_goes hcancel
  · exact absurd hmem List.not_mem_nil
  · cases List.mem_singleton.mp hmem
    cases hx
  · have limited : (m.withdraw (listed.filter (isOutstanding node))).Keeps (.limits W fun c =>
        ∃ r ∈ listed.filter (isOutstanding node), c = MonitorCall.deleteRequest r.name)
        (fun _ _ => True) w₁ :=
      withdraw_keeps trivial fun _ _ r hr => ⟨r, hr, rfl⟩
    have hcalls := (limited.within hdel).1
    -- The first exchange is the listing; the call is not that one.
    cases before with
    | nil =>
        obtain ⟨rfl, -⟩ := List.cons.inj hhad
        cases hx
    | cons first before =>
        obtain ⟨rfl, hrest⟩ := List.cons.inj hhad
        rw [hrest] at hcalls
        refine ⟨node, listed, v, v', before, clears, rfl, fun d hd => ?_, ?_⟩
        · obtain ⟨r, -, hr⟩ := hcalls d (List.mem_append_left _ hd)
          exact ⟨r.name, hr⟩
        · obtain ⟨r, hr, hname⟩ := hcalls x (List.mem_append_right _ (List.mem_cons_self ..))
          obtain ⟨hlisted, outstanding⟩ := List.mem_filter.mp hr
          refine ⟨r, hlisted, ?_, isOutstanding_iff.mp outstanding⟩
          exact (MonitorCall.deleteRequest.inj (hx.symm.trans hname)).symm

/-- **A signal because of which something was deleted**, once it is handled: all requests that were
to be deleted were tried, and the count is that of the deletions that have succeeded. -/
theorem react_withdrawn {outcome : Except TaskError MonitorAction} {m' : Monitor}
    (h : Program.Goes R w₀ (m.react notice) had w (.done (outcome, m')))
    (hdel : (∃ x ∈ had, Deletes x) ∨ ∃ k, outcome = .ok (.cancelled k)) :
    ∃ k, outcome = .ok (.cancelled k) ∧ m.Withdrawn notice had k := by
  have hcancels : (∃ x ∈ had, Deletes x) ∨
      ∃ k m'', Program.done (I := MonitorStore) (outcome, m') = .done (.ok (.cancelled k), m'') :=
    hdel.imp_right fun ⟨k, hk⟩ => ⟨k, m', by rw [hk]⟩
  obtain ⟨node, w', p, clears, hcancel, hend⟩ := react_cancels h hcancels
  obtain rfl := hend outcome m' rfl
  obtain ⟨-, hunfinished⟩ | ⟨v, e, v', rfl, hdone⟩ | ⟨listed, v, v', w₁, deletions, rfl, hgoes⟩ :=
    cancel_goes hcancel
  · exact absurd rfl (hunfinished outcome)
  · cases hdone
    obtain ⟨k, hk⟩ := of_listing rfl hdel
    cases hk
  · unfold withdraw at hgoes
    split at hgoes
    · -- No open request was listed, and so none is deleted.
      obtain ⟨rfl, hdone⟩ := hgoes.of_done
      cases hdone
      obtain ⟨k, hk⟩ := of_listing rfl hdel
      cases hk
    · obtain ⟨had', w₂, count, last, hall, hlast, rfl⟩ := hgoes.split_done
      obtain ⟨rfl, hdone⟩ := hlast.of_done
      cases hdone
      obtain ⟨blocks, rfl, tried, hcount⟩ := deleteAll_tried hall
      refine ⟨count, rfl, node, listed, v, v', blocks, clears, ?_, tried, hcount⟩
      rw [List.append_nil]

/-- **Only what may be withdrawn is withdrawn**, and all of it is tried.  A request is deleted only
if the signal that is handled clears a node and the listing before shows the request open and
aimed at this very node.  Once the signal is handled, all such requests were tried, and the
count that is told is that of the deletions that have succeeded. -/
theorem Attends.withdraws (h : m₀.Attends R w₀ past w rest) {t : Handling W} (ht : t ∈ past) :
    (∀ before x behind name, t.exchanges = before ++ x :: behind →
      x.call = .deleteRequest name →
      m₀.health.recovery ≠ .disabled ∧ m₀.Due t.notice before name) ∧
    ∀ outcome m', t.rest = .done (outcome, m') →
      ((∃ x ∈ t.exchanges, Deletes x) ∨ ∃ k, outcome = .ok (.cancelled k)) →
      ∃ k, outcome = .ok (.cancelled k) ∧ m₀.Withdrawn t.notice t.exchanges k := by
  obtain ⟨same, w₁, w₂, goes⟩ := h.handled.2 t ht
  have hbackoff : t.monitor.backoff = m₀.backoff := by
    obtain ⟨_, hsame⟩ := same
    rw [hsame]
  constructor
  · intro before x behind name hhad hx
    obtain ⟨node, listed, v, v', deletions, clears, hlisted⟩ := react_due goes hhad hx
    have clears := same.clears clears
    exact ⟨clears.enabled, node, listed, v, v', deletions, clears, hlisted⟩
  · intro outcome m' hrest hdel
    rw [hrest] at goes
    obtain ⟨k, hk, node, listed, v, v', blocks, clears, htried⟩ := react_withdrawn goes hdel
    rw [hbackoff] at htried
    exact ⟨k, hk, node, listed, v, v', blocks, same.clears clears, htried⟩

/-- A node that has been ready since the beginning of 1970. -/
def ready (name : String) : Node where
  metadata := { name := some name }
  conditions := [{ type := "Ready", status := "True", lastTransition := some ⟨0, 0⟩ }]

/-- A request of some name for a node. -/
def pending (name node : String) : Request where
  metadata := { name := some name, labels := some [(Request.targetLabel, labelValue node)] }
  target := node

/-- Of two nodes with one label only the request for the one that is ready again is deleted, here
at the second attempt. -/
theorem withdraws_ready : ∃ (past : List (Handling MonitorMemory)) (w : MonitorMemory)
    (t : Handling MonitorMemory),
    (({} : Monitor).Attends MonitorMemory.shared
      { requests := [pending "fence-1" "Rack-1", pending "fence-2" "rack-1"] } past w t.rest ∧
      t ∈ past) ∧
    (∃ before x behind, t.exchanges = before ++ x :: behind ∧ x.call = .deleteRequest "fence-2" ∧
      ({} : Monitor).health.recovery ≠ .disabled ∧ ({} : Monitor).Due t.notice before "fence-2") ∧
    ∃ m', t.rest = .done (.ok (.cancelled 1), m') ∧
      ∃ k, .ok (.cancelled 1) = (.ok (.cancelled k) : Except TaskError MonitorAction) ∧
        ({} : Monitor).Withdrawn t.notice t.exchanges k := by
  have seen : Program.Goes MonitorMemory.shared
      { requests := [pending "fence-1" "Rack-1", pending "fence-2" "rack-1"] }
      (react {} (.seen (ready "rack-1") ⟨60, 0⟩)) []
      { requests := [pending "fence-1" "Rack-1", pending "fence-2" "rack-1"] }
      (react {} (.seen (ready "rack-1") ⟨60, 0⟩)) := .begun
  have listed := Program.Goes.calls (R := MonitorMemory.shared) seen .works
  have failed := Program.Goes.calls (R := MonitorMemory.shared) listed
    (.refuses (.api .unintelligible))
  have deleted := Program.Goes.calls (R := MonitorMemory.shared) failed.pauses .works
  have attends := Attends.begun.handles deleted
  obtain ⟨due, withdrawn⟩ :=
    attends.withdraws (List.mem_append_right _ (List.mem_singleton_self _))
  exact ⟨_, _, _, ⟨attends, List.mem_append_right _ (List.mem_singleton_self _)⟩,
    ⟨_, _, [], rfl, rfl, due _ _ [] "fence-2" rfl rfl⟩,
    ⟨_, rfl, withdrawn _ _ rfl (.inr ⟨1, rfl⟩)⟩⟩

end Monitor

end NodeFencing
