import NodeFencing.Proofs.Monitor.Reaction
import NodeFencing.Proofs.Program.Exchange

/-!
# A monitor on its shift

A monitor handles one signal after another.  What it remembers from one to the next is which
nodes have settled.  While a signal is handled the calls of the monitor are answered by the
rules of some site, and others go on there.  The last signal need not be handled to its end.

## Main Definitions

* `Handling` — a signal with the calls that were made because of it
* `Monitor.Attends` — a monitor handles signals, one after another

## Main statements

* `Monitor.react_becomes` — a monitor keeps its settings, whatever it does about a signal
* `Monitor.Attends.handled` — every signal of a run is handled with the settings of its start
-/

namespace NodeFencing

/-- A signal with the calls that were made because of it. -/
structure Handling (W : Type) where
  /-- The monitor as the signal has found it. -/
  monitor : Monitor
  notice : Notice
  exchanges : List (Exchange MonitorStore W)
  /-- What is still to be done about the signal. -/
  rest : Reaction

namespace Monitor

variable {W : Type}

/-- The rules of a site for a monitor. -/
abbrev SiteRules (W : Type) :=
  Rules MonitorStore (Except TaskError MonitorAction × Monitor) W

/-- A monitor handles signals of any kind, one after another, while others go on.  It begins on a
site with nothing to do, and every signal but the last one is handled to its end. -/
inductive Attends (R : SiteRules W) (w₀ : W) (m₀ : Monitor) :
    List (Handling W) → W → Reaction → Prop
  | begun : Attends R w₀ m₀ [] w₀ (.done (.ok .none, m₀))
  | handles {past w outcome m notice exchanges w' rest}
      (h : Attends R w₀ m₀ past w (.done (outcome, m)))
      (goes : Program.Goes R w (m.react notice) exchanges w' rest) :
      Attends R w₀ m₀ (past ++ [⟨m, notice, exchanges, rest⟩]) w' rest

variable {R : SiteRules W} {w₀ w : W} {m₀ m : Monitor} {past : List (Handling W)} {rest : Reaction}

/-- Its settings stay what they are, whatever it does about a signal. -/
theorem react_becomes {notice : Notice} {had : List (Exchange MonitorStore W)}
    {outcome : Except TaskError MonitorAction} {m' : Monitor}
    (goes : Program.Goes R w₀ (m.react notice) had w (.done (outcome, m'))) : m.Becomes m' := by
  generalize hp : m.react notice = p at goes
  cases hp ▸ m.plan notice with
  | rests quiet same =>
      obtain ⟨-, hdone⟩ := goes.of_done
      cases hdone
      exact same
  | raises grounds same =>
      obtain ⟨_, _, b, _, -, behind, -⟩ := goes.split_done
      obtain ⟨-, hdone⟩ := behind.of_done
      cases hdone
      exact same
  | cancels clears ends =>
      obtain ⟨_, _, b, _, -, behind, -⟩ := goes.split_done
      obtain ⟨m'', hafter, same⟩ := ends b
      rw [hafter] at behind
      obtain ⟨-, hdone⟩ := behind.of_done
      cases hdone
      exact same

/-- **Every signal of a run** is handled by a monitor with the settings of the start, and its calls
are those of the monitor's reaction. -/
theorem Attends.handled (h : m₀.Attends R w₀ past w rest) :
    (∀ outcome m, rest = .done (outcome, m) → m₀.Becomes m) ∧
      ∀ t ∈ past, m₀.Becomes t.monitor ∧ ∃ before behind,
        Program.Goes R before (t.monitor.react t.notice) t.exchanges behind t.rest := by
  induction h with
  | begun =>
      refine ⟨fun outcome m hdone => ?_, fun t ht => absurd ht List.not_mem_nil⟩
      cases hdone
      exact .refl m₀
  | @handles past w outcome m notice exchanges w' rest h goes ih =>
      have same := ih.1 outcome m rfl
      refine ⟨fun outcome' m' hdone => ?_, fun t ht => ?_⟩
      · subst hdone
        exact same.trans (react_becomes goes)
      · rcases List.mem_append.mp ht with hold | hnew
        · exact ih.2 t hold
        · obtain rfl := List.mem_singleton.mp hnew
          exact ⟨same, w, w', goes⟩

end Monitor

end NodeFencing
