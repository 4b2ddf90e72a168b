import Mathlib.Data.List.Nodup
import NodeFencing.Config.Validate
import NodeFencing.Proofs.Label

/-!
# Which configurations are usable

A configuration is read and then checked, method by method.  Each method is compared with
those before it, and the first fault ends the check.  What is accepted in this way can be
told without the check: the methods and their mechanisms are complete, and the names of
methods differ, also in the forms in which they occur in names of jobs and in labels.

## Main Definitions

* `Mechanism.Usable`, `Method.Usable`, `Config.Usable` — what can be used
* `NamesApart` — names of methods that differ in all their forms

## Main statements

* `methodsFault?_eq_none_iff` — what holds of methods behind others if none has a fault
* `Config.fault?_eq_none_iff` — a configuration has no fault exactly if it is usable
* `Config.ofYaml_accepts_iff` — exactly the usable configurations are accepted
-/

namespace NodeFencing

/-! ### What can be used -/

/-- A mechanism tells what to run, and its parameters have names. -/
structure Mechanism.Usable (m : Mechanism) : Prop where
  /-- A fence agent whose name is not empty, or a command in its place. -/
  agent : m.driver = .baremetal →
    (∃ agent, m.agent = some agent ∧ agent ≠ "") ∨ ∃ command, m.command = some command
  /-- A program of its own is an image with a command. -/
  program : m.driver = .custom →
    (∃ image, m.image = some image) ∧ ∃ command, m.command = some command
  fields : ∀ v ∈ m.dynamicConfig, v.field ≠ ""

/-- A method has a name that is more than white space, and mechanisms to run. -/
structure Method.Usable (m : Method) : Prop where
  named : trimBoth (!isWhiteSpace ·) m.name.toList ≠ []
  retries : 0 ≤ m.retries
  nonempty : m.mechanisms ≠ []
  mechanisms : ∀ mechanism ∈ m.mechanisms, mechanism.Usable

/-- A configuration has methods to choose from, whose names differ in all their forms. -/
structure Config.Usable (c : Config) : Prop where
  nonempty : c.methods ≠ []
  methods : ∀ m ∈ c.methods, m.Usable
  names : (c.methods.map (·.name)).Nodup
  nameForms : (c.methods.map fun m => dnsLabel m.name).Nodup
  labelForms : (c.methods.map fun m => labelValue m.name).Nodup

/-! ### One check after the other -/

/-- Checks find no fault if the first one does not and those behind it do not. -/
theorem check_eq_none_iff {p : Prop} [Decidable p] {fault : ConfigFault}
    {rest : Option ConfigFault} :
    (if p then some fault else rest) = none ↔ ¬ p ∧ rest = none := by
  by_cases h : p
  · simp [h]
  · simp [h]

/-- A mechanism has no fault exactly if it is usable. -/
theorem Mechanism.fault?_eq_none_iff {m : Mechanism} {method : String} :
    m.fault? method = none ↔ m.Usable := by
  have agent : ¬ (m.driver == .baremetal && m.agent.getD "" == "" && m.command.isNone) = true ↔
      (m.driver = .baremetal →
        (∃ agent, m.agent = some agent ∧ agent ≠ "") ∨ ∃ command, m.command = some command) := by
    cases m.agent <;> cases m.command <;> simp
  have program : ¬ (m.driver == .custom && (m.image.isNone || m.command.isNone)) = true ↔
      (m.driver = .custom →
        (∃ image, m.image = some image) ∧ ∃ command, m.command = some command) := by
    cases m.image <;> cases m.command <;> simp
  have fields : ¬ m.dynamicConfig.any (·.field == "") = true ↔
      ∀ v ∈ m.dynamicConfig, v.field ≠ "" := by
    simp
  unfold fault?
  rw [check_eq_none_iff, check_eq_none_iff, check_eq_none_iff, agent, program, fields]
  constructor
  · rintro ⟨hagent, hprogram, hfields, -⟩
    exact ⟨hagent, hprogram, hfields⟩
  · rintro ⟨hagent, hprogram, hfields⟩
    exact ⟨hagent, hprogram, hfields, rfl⟩

/-- Two names of methods differ, also in names of jobs and in labels. -/
structure NamesApart (a b : String) : Prop where
  name : a ≠ b
  nameForm : dnsLabel a ≠ dnsLabel b
  labelForm : labelValue a ≠ labelValue b

/-- A method has no fault behind others exactly if it is usable and its name differs from theirs. -/
theorem Method.fault?_eq_none_iff {m : Method} {earlier : List String} :
    m.fault? earlier = none ↔ m.Usable ∧ ∀ e ∈ earlier, NamesApart e m.name := by
  have named : ¬ isBlankText m.name = true ↔ trimBoth (!isWhiteSpace ·) m.name.toList ≠ [] := by
    rw [not_iff_not]
    simp [isBlankText, trimBoth_eq_nil_iff]
  have new : ¬ earlier.contains m.name = true ↔ ∀ e ∈ earlier, e ≠ m.name := by
    rw [List.contains_iff_mem]
    exact ⟨fun h e he heq => h (heq ▸ he), fun h hmem => h m.name hmem rfl⟩
  have distinct : ¬ (earlier.any fun e =>
      dnsLabel e == dnsLabel m.name || labelValue e == labelValue m.name) = true ↔
        ∀ e ∈ earlier, dnsLabel e ≠ dnsLabel m.name ∧ labelValue e ≠ labelValue m.name := by
    simp
  have mechanisms : m.mechanisms.findSome? (·.fault? m.name) = none ↔
      ∀ mechanism ∈ m.mechanisms, mechanism.Usable := by
    simp only [List.findSome?_eq_none_iff, Mechanism.fault?_eq_none_iff]
  unfold fault?
  rw [check_eq_none_iff, check_eq_none_iff, check_eq_none_iff, check_eq_none_iff,
    check_eq_none_iff, named, new, distinct, Int.not_lt, List.isEmpty_iff, mechanisms]
  constructor
  · rintro ⟨hnamed, hnew, hdistinct, hretries, hnonempty, hmechanisms⟩
    refine ⟨⟨hnamed, hretries, hnonempty, hmechanisms⟩, fun e he => ?_⟩
    exact ⟨hnew e he, (hdistinct e he).1, (hdistinct e he).2⟩
  · rintro ⟨⟨hnamed, hretries, hnonempty, hmechanisms⟩, apart⟩
    refine ⟨hnamed, fun e he => (apart e he).name, fun e he => ?_, hretries, hnonempty,
      hmechanisms⟩
    exact ⟨(apart e he).nameForm, (apart e he).labelForm⟩

/-- **The check of methods**, step by step: a method that has no fault is one of those that the next
ones are compared with. -/
theorem methodsFault?_eq_none_iff {earlier : List String} {methods : List Method} :
    methodsFault? earlier methods = none ↔
      (∀ m ∈ methods, m.Usable ∧ ∀ e ∈ earlier, NamesApart e m.name) ∧
        methods.Pairwise fun m m' => NamesApart m.name m'.name := by
  induction methods generalizing earlier with
  | nil => simp [methodsFault?]
  | cons m rest ih =>
      have step : methodsFault? earlier (m :: rest) = none ↔
          m.fault? earlier = none ∧ methodsFault? (earlier ++ [m.name]) rest = none := by
        rw [methodsFault?]
        cases m.fault? earlier <;> simp
      rw [step, Method.fault?_eq_none_iff, ih, List.forall_mem_cons, List.pairwise_cons]
      constructor
      · rintro ⟨hm, hrest, pairwise⟩
        refine ⟨⟨hm, fun m' hm' => ⟨(hrest m' hm').1, fun e he => ?_⟩⟩, fun m' hm' => ?_, pairwise⟩
        · exact (hrest m' hm').2 e (List.mem_append_left _ he)
        · exact (hrest m' hm').2 m.name (List.mem_append_right _ (List.mem_singleton_self _))
      · rintro ⟨⟨hm, hrest⟩, hlater, pairwise⟩
        refine ⟨hm, fun m' hm' => ⟨(hrest m' hm').1, fun e he => ?_⟩, pairwise⟩
        rcases List.mem_append.mp he with hearlier | hself
        · exact (hrest m' hm').2 e hearlier
        · exact List.mem_singleton.mp hself ▸ hlater m' hm'

/-! ### Configurations -/

namespace Config

variable {c : Config}

/-- Names that differ in all forms differ in each of them. -/
theorem pairwise_namesApart_iff :
    (c.methods.Pairwise fun m m' => NamesApart m.name m'.name) ↔
      (c.methods.map (·.name)).Nodup ∧ (c.methods.map fun m => dnsLabel m.name).Nodup ∧
        (c.methods.map fun m => labelValue m.name).Nodup := by
  unfold List.Nodup
  rw [List.pairwise_map, List.pairwise_map, List.pairwise_map, ← List.pairwise_and_iff,
    ← List.pairwise_and_iff]
  refine List.Pairwise.iff fun m m' => ?_
  exact ⟨fun apart => ⟨apart.name, apart.nameForm, apart.labelForm⟩,
    fun ⟨name, nameForm, labelForm⟩ => ⟨name, nameForm, labelForm⟩⟩

/-- **A configuration has no fault exactly if it is usable.** -/
theorem fault?_eq_none_iff : c.fault? = none ↔ c.Usable := by
  unfold fault?
  rw [check_eq_none_iff, List.isEmpty_iff, methodsFault?_eq_none_iff, pairwise_namesApart_iff]
  constructor
  · rintro ⟨nonempty, methods, names, nameForms, labelForms⟩
    exact ⟨nonempty, fun m hm => (methods m hm).1, names, nameForms, labelForms⟩
  · rintro ⟨nonempty, methods, names, nameForms, labelForms⟩
    exact ⟨nonempty, fun m hm => ⟨methods m hm, nofun⟩, names, nameForms, labelForms⟩

/-- The name of the source does not matter for what is usable. -/
theorem usable_rename (name : String) : Usable { c with name } ↔ c.Usable :=
  ⟨fun h => ⟨h.nonempty, h.methods, h.names, h.nameForms, h.labelForms⟩,
    fun h => ⟨h.nonempty, h.methods, h.names, h.nameForms, h.labelForms⟩⟩

/-- **Exactly the usable configurations are accepted.**  What is read from a text comes under the
name of its source, whatever name the text gives.  If it is not usable, the error names the
source. -/
theorem ofYaml_accepts_iff {text : String} (h : Yaml.decode decoder text = .ok c)
    (name : String) :
    (ofYaml name text = .ok { c with name } ↔ c.Usable) ∧
      (¬ c.Usable → ∃ fault, ofYaml name text = .error (.invalidConfig name fault)) := by
  rw [← usable_rename name, ← fault?_eq_none_iff]
  unfold ofYaml
  rw [h]
  dsimp only
  cases fault? { c with name } with
  | none => exact ⟨⟨fun _ => rfl, fun _ => rfl⟩, fun unusable => absurd rfl unusable⟩
  | some fault => exact ⟨⟨nofun, nofun⟩, fun _ => ⟨fault, rfl⟩⟩

/-- A text with a name of its own and two methods whose names are close to each other. -/
def closeNames : String :=
  "name: old\n" ++
  "methods:\n" ++
  "- name: ' IPMI'\n  retries: 0\n  mechanisms:\n  - driver: baremetal\n    command: []\n" ++
  "- name: ipmi-2\n  mechanisms:\n  - driver: echo\n"

@[inherit_doc closeNames]
def close : Config where
  name := "old"
  methods := [
    { name := " IPMI", retries := 0, mechanisms := [{ driver := .baremetal, command := some [] }] },
    { name := "ipmi-2", mechanisms := [{}] }]

theorem ofYaml_accepts_iff_close :
    Yaml.decode decoder closeNames = .ok close ∧
      ofYaml "rack-1" closeNames = .ok { close with name := "rack-1" } := by
  have reads : Yaml.decode decoder closeNames = .ok close := by decide +kernel
  have usable : close.Usable := fault?_eq_none_iff.mp (by decide +kernel)
  exact ⟨reads, (ofYaml_accepts_iff reads "rack-1").1.mpr usable⟩

end Config

end NodeFencing
