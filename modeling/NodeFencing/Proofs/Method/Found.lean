import NodeFencing.Proofs.Escalation
import NodeFencing.Proofs.Label
import NodeFencing.Proofs.Method.Job
import NodeFencing.Proofs.Selector

/-!
# Finding the jobs of a method

The jobs of a method of a request are asked for by a text, which names two labels and their
values.  Whatever the request and the method are called, this text is read as it is meant,
for label values hold none of the signs that its form needs.  And since the methods of a
usable configuration differ in their label values, even where their names have lost all
that sets them apart but this, the job of a method is found for this method and for no other.

## Main statements

* `ofText_jobSelector` — the text by which jobs are asked for is read as it is meant
* `found_iff_same` — a job is found for the method that it carries out, and for no other
-/

namespace NodeFencing

/-! ### The text of the condition -/

/-- The signs that the text of a selector needs are none that a label value holds. -/
theorem notMem_labelValue {c : Char} (h : isLabelChar c = false) (text : String) :
    c ∉ (labelValue text).toList := by
  intro hc
  rw [isLabelChar_of_mem_labelValue hc] at h
  cases h

theorem plain_jobLabels (request method : String) : (jobLabels request method).Plain := by
  have values (text : String) : ',' ∉ (labelValue text).toList :=
    notMem_labelValue (by decide) text
  have requestKey : ',' ∉ requestLabel.toList ∧ '=' ∉ requestLabel.toList := by decide
  have methodKey : ',' ∉ methodLabel.toList ∧ '=' ∉ methodLabel.toList := by decide
  unfold Selector.Plain jobLabels
  rw [List.forall_mem_cons, List.forall_mem_singleton]
  dsimp only
  exact ⟨⟨requestKey.1, requestKey.2, values request⟩, methodKey.1, methodKey.2, values method⟩

/-- **The text by which jobs are asked for is read as it is meant**: the label of the request and
the label of the method have these values, and nothing else is asked for. -/
theorem ofText_jobSelector (request method : String) :
    Selector.ofText (jobSelector request method) = jobLabels request method :=
  Selector.ofText_text (plain_jobLabels request method)

/-! ### Jobs that are found -/

/-- **A job is found for the method that it carries out, and for no other.**  Whatever a request and
the methods of a usable configuration are called, the labels of the job of a method meet the
condition by which the jobs of a method of this request are asked for, if and only if the two
methods are the same one.  The condition is taken as its text says. -/
theorem found_iff_same {c : Config} (usable : c.fault? = none) (r : Request)
    (settings : BuildSettings) {i k : Nat} {m m' : Method} (hm : c.methods[i]? = some m)
    (hm' : c.methods[k]? = some m') {j : Job} (built : m.buildJob c r settings = .ok j) :
    (Selector.ofText (jobSelector r.name m'.name)).holds j.metadata.label? = true ↔ i = k := by
  have carries : m.Carries c r j := (Method.buildJob_ok built).1
  rw [ofText_jobSelector]
  constructor
  · intro found
    exact (Config.index_of_labelValue usable hm hm' (carries.labelValue_eq found)).1
  · rintro rfl
    obtain rfl : m = m' := Option.some.inj (hm.symm.trans hm')
    exact carries.isFor

/-- A method whose name is too long for a label, and holds all the signs that a selector needs. -/
def networkMethod : Method where
  name := "Power, off = over the management network of the second data centre, row 7, rack 12"
  mechanisms := [{}]

/-- A method of whose name nothing is left in a label. -/
def namelessMethod : Method where
  name := "電源"
  mechanisms := [{}]

/-- A configuration of methods whose names are not made for labels. -/
def exotic : Config where
  name := "exotic"
  methods := [networkMethod, namelessMethod]

/-- A request whose name is not made for labels either. -/
def exoticRequest : Request where
  metadata := { name := some "Fence, node=1", uid := some "0f1e2d3c-4b5a" }
  target := "node-1"

/-- The job of the first method of this configuration is found for it, and not for the second. -/
theorem found_iff_same_exotic :
    exotic.fault? = none ∧ exotic.methods[0]? = some networkMethod ∧
      exotic.methods[1]? = some namelessMethod ∧
      ∃ j, networkMethod.buildJob exotic exoticRequest {} = .ok j ∧
        (Selector.ofText (jobSelector exoticRequest.name networkMethod.name)).holds
          j.metadata.label? = true ∧
        ¬ (Selector.ofText (jobSelector exoticRequest.name namelessMethod.name)).holds
          j.metadata.label? = true := by
  have usable : exotic.fault? = none := by decide +kernel
  have first : exotic.methods[0]? = some networkMethod := rfl
  have second : exotic.methods[1]? = some namelessMethod := rfl
  refine ⟨usable, first, second, _, rfl, ?_, ?_⟩
  · exact (found_iff_same usable exoticRequest {} first first rfl).mpr rfl
  · intro other
    exact absurd ((found_iff_same usable exoticRequest {} first second rfl).mp other) (by decide)

end NodeFencing
