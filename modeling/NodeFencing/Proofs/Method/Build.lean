import NodeFencing.Method.Job
import NodeFencing.Proofs.StringMap

/-!
# All mechanisms or none

A method is built mechanism by mechanism, and a mechanism parameter by parameter.  The first
fault that is met on this way ends it, and no part of the method remains.  Whether there is a
fault does not depend on the way: it is that of a mechanism whose parameters cannot be passed
as it says, or that has a parameter without a value for the node.

## Main Definitions

* `FirstAt`, `Fails` — the first entry of a list that has a property, and that of having an error
* `TargetValue.Lacks`, `Mechanism.Faulty` — a parameter without a value, a mechanism that cannot be
  carried out
* `Mechanism.Fault` — what is wrong with a mechanism
* `Mechanism.partFor` — the container of a mechanism that is not faulty
* `Method.Assembled` — a job that has a container for each mechanism

## Main statements

* `mapM_eq_error_iff`, `getElem?_of_mapM` — what comes of a list that is gone through up to an error
* `Mechanism.build_eq_error_iff` — why a mechanism has no container
* `Mechanism.exists_partFor` — what the container of a mechanism is
* `buildParts_eq_error_iff` — why a method has no containers
* `Method.builds_all_or_nothing` — a method has a job unless a mechanism is faulty, and the first
  faulty one is the cause
-/

namespace NodeFencing

/-! ### Up to the first fault -/

section FirstFault

variable {α β ε : Type}

/-- An entry of a list has a property, and none before it does. -/
def FirstAt (l : List α) (p : α → Prop) (i : Nat) (a : α) : Prop :=
  l[i]? = some a ∧ p a ∧ ∀ j < i, ∀ b, l[j]? = some b → ¬ p b

/-- A step has an error for an entry. -/
def Fails (f : α → Except ε β) (a : α) : Prop :=
  ∃ e, f a = .error e

variable {l : List α} {p : α → Prop} {a : α} {i : Nat}

theorem firstAt_zero (h : p a) : FirstAt (a :: l) p 0 a :=
  ⟨rfl, h, nofun⟩

theorem firstAt_succ {b : α} (h : ¬ p b) : FirstAt (b :: l) p (i + 1) a ↔ FirstAt l p i a := by
  unfold FirstAt
  rw [List.getElem?_cons_succ]
  refine and_congr_right fun _ => and_congr_right fun _ =>
    ⟨fun hall j hj => ?_, fun hall j hj => ?_⟩
  · exact hall (j + 1) (Nat.succ_lt_succ hj)
  · cases j with
    | zero => rintro _ ⟨⟩; exact h
    | succ j => exact hall j (Nat.lt_of_succ_lt_succ hj)

/-- Where there is an entry with a property, there is a first one. -/
theorem exists_firstAt_iff : (∃ i a, FirstAt l p i a) ↔ ∃ a ∈ l, p a := by
  constructor
  · rintro ⟨i, a, hget, ha, -⟩
    exact ⟨a, List.mem_of_getElem? hget, ha⟩
  · rintro ⟨a, hmem, ha⟩
    induction l with
    | nil => cases hmem
    | cons b l ih =>
        by_cases hb : p b
        · exact ⟨0, b, firstAt_zero hb⟩
        · have hrest : a ∈ l := by
            rcases List.mem_cons.mp hmem with rfl | hrest
            · exact absurd ha hb
            · exact hrest
          obtain ⟨i, a', hfirst⟩ := ih hrest
          exact ⟨i + 1, a', (firstAt_succ hb).mpr hfirst⟩

/-- An entry is the first one also if the entries are counted. -/
theorem firstAt_zipIdx {k : Nat} {entry : α × Nat} :
    FirstAt (l.zipIdx k) (fun entry => p entry.1) i entry ↔
      FirstAt l p i entry.1 ∧ entry.2 = k + i := by
  obtain ⟨a, n⟩ := entry
  unfold FirstAt
  simp only [List.getElem?_zipIdx, Option.map_eq_some_iff, Prod.mk.injEq]
  constructor
  · rintro ⟨⟨a', hget, rfl, rfl⟩, ha, hbefore⟩
    exact ⟨⟨hget, ha, fun j hj b hb => hbefore j hj (b, k + j) ⟨b, hb, rfl⟩⟩, rfl⟩
  · rintro ⟨⟨hget, ha, hbefore⟩, rfl⟩
    refine ⟨⟨a, hget, rfl, rfl⟩, ha, ?_⟩
    rintro j hj _ ⟨b, hb, rfl⟩
    exact hbefore j hj b hb

/-- **A list that is gone through fails** with the error of the first entry that has one. -/
theorem mapM_eq_error_iff {f : α → Except ε β} {e : ε} :
    l.mapM f = .error e ↔ ∃ i a, FirstAt l (Fails f) i a ∧ f a = .error e := by
  induction l with
  | nil => simp [FirstAt, pure, Except.pure]
  | cons a l ih =>
      rw [List.mapM_cons]
      cases ha : f a with
      | error e' =>
          simp only [bind, Except.bind, Except.error.injEq]
          constructor
          · rintro rfl
            exact ⟨0, a, firstAt_zero ⟨_, ha⟩, ha⟩
          · rintro ⟨i, a', ⟨hget, -, hbefore⟩, ha'⟩
            cases i with
            | zero =>
                obtain rfl := Option.some.inj hget
                exact Except.error.inj (ha.symm.trans ha')
            | succ i => exact absurd ⟨e', ha⟩ (hbefore 0 (Nat.zero_lt_succ i) a rfl)
      | ok b =>
          have passes : ¬ Fails f a := by simp [Fails, ha]
          have hrest : (do return b :: (← l.mapM f) : Except ε (List β)) = .error e ↔
              l.mapM f = .error e := by
            cases l.mapM f <;> simp [bind, Except.bind, pure, Except.pure]
          refine hrest.trans (ih.trans ⟨?_, ?_⟩)
          · rintro ⟨i, a', hfirst, ha'⟩
            exact ⟨i + 1, a', (firstAt_succ passes).mpr hfirst, ha'⟩
          · rintro ⟨i, a', hfirst, ha'⟩
            cases i with
            | zero => exact absurd hfirst.2.1 (Option.some.inj hfirst.1 ▸ passes)
            | succ i => exact ⟨i, a', (firstAt_succ passes).mp hfirst, ha'⟩

/-- Two steps have a result if the first one has, and the second one has with that. -/
theorem bind_eq_ok_iff {x : Except ε α} {f : α → Except ε β} {b : β} :
    x >>= f = .ok b ↔ ∃ a, x = .ok a ∧ f a = .ok b := by
  cases x <;> simp [bind, Except.bind]

/-- A list that is gone through to its end has a result for each entry. -/
theorem getElem?_of_mapM {f : α → Except ε β} {results : List β} (h : l.mapM f = .ok results) :
    results.length = l.length ∧
      ∀ (i : Nat) (a : α), l[i]? = some a → ∃ b, results[i]? = some b ∧ f a = .ok b := by
  induction l generalizing results with
  | nil =>
      obtain rfl : [] = results := Except.ok.inj h
      exact ⟨rfl, nofun⟩
  | cons a l ih =>
      rw [List.mapM_cons] at h
      obtain ⟨b, ha, h⟩ := bind_eq_ok_iff.mp h
      obtain ⟨rest, hl, h⟩ := bind_eq_ok_iff.mp h
      obtain rfl : b :: rest = results := Except.ok.inj h
      obtain ⟨hlength, hall⟩ := ih hl
      refine ⟨by simp [hlength], fun i a' hget => ?_⟩
      cases i with
      | zero =>
          obtain rfl := Option.some.inj hget
          exact ⟨b, rfl, ha⟩
      | succ i => exact hall i a' hget

end FirstFault

/-! ### Parameters -/

/-- A parameter has no value for a node: neither one of its own, nor a fallback that is not
empty. -/
def TargetValue.Lacks (v : TargetValue) (target : String) : Prop :=
  target ∉ v.values.keys ∧ ∀ value, v.fallback = some value → value = ""

variable {target : String} {operation : Operation} {settings : BuildSettings} {index : Nat}
  {e : FencingError}

theorem TargetValue.resolve_eq_error_iff {v : TargetValue} :
    v.resolve target = .error e ↔ v.Lacks target ∧ e = .missingValue v.field target := by
  have lookup_none : v.lookup target = none ↔ v.Lacks target := by
    unfold lookup Lacks
    rw [← StringMap.get?_eq_none_iff]
    cases v.values.get? target with
    | some value => simp
    | none => simp [Option.filter_eq_none_iff]
  unfold resolve
  rw [← lookup_none]
  cases v.lookup target with
  | some value => simp
  | none => simp [eq_comm]

namespace Mechanism

variable {m : Mechanism}

/-- Parameters can be passed as a mechanism says. -/
def KnownFormat (m : Mechanism) : Prop :=
  m.argumentFormat = "cli" ∨ m.argumentFormat = "env"

/-- A mechanism cannot be carried out: its parameters cannot be passed as it says, or one of them
has no value for the node. -/
def Faulty (m : Mechanism) (target : String) : Prop :=
  ¬ m.KnownFormat ∨ ∃ v ∈ m.dynamicConfig, v.Lacks target

/-- What is wrong with a mechanism: the way in which parameters are passed, and only if that is
known, the first parameter without a value. -/
inductive Fault (m : Mechanism) (target : String) : FencingError → Prop where
  | format (unknown : ¬ m.KnownFormat) : Fault m target (.unsupportedFormat m.argumentFormat)
  | value {i : Nat} {v : TargetValue} (known : m.KnownFormat)
      (first : FirstAt m.dynamicConfig (·.Lacks target) i v) :
      Fault m target (.missingValue v.field target)

/-- Something is wrong with exactly those mechanisms that cannot be carried out. -/
theorem exists_fault_iff : (∃ e, m.Fault target e) ↔ m.Faulty target := by
  constructor
  · rintro ⟨e, unknown | ⟨known, first⟩⟩
    · exact .inl unknown
    · exact .inr (exists_firstAt_iff.mp ⟨_, _, first⟩)
  · intro h
    by_cases known : m.KnownFormat
    · obtain ⟨i, v, first⟩ := exists_firstAt_iff.mpr (h.resolve_left (not_not_intro known))
      exact ⟨_, .value known first⟩
    · exact ⟨_, .format known⟩

theorem named_cases (m : Mechanism) :
    (m.KnownFormat ∧ ∃ format, ArgumentFormat.named m.argumentFormat = .ok format) ∨
      ¬ m.KnownFormat ∧
        ArgumentFormat.named m.argumentFormat = .error (.unsupportedFormat m.argumentFormat) := by
  unfold ArgumentFormat.named KnownFormat
  by_cases cli : m.argumentFormat = "cli"
  · exact .inl ⟨.inl cli, .cli, by rw [cli]; rfl⟩
  · by_cases env : m.argumentFormat = "env"
    · exact .inl ⟨.inr env, .env, by rw [env]; rfl⟩
    · refine .inr ⟨not_or.mpr ⟨cli, env⟩, ?_⟩
      simp [ArgumentFormat.name, Ne.symm cli, Ne.symm env]

theorem parameters_eq_error_iff :
    m.parameters target = .error e ↔
      ∃ i v, FirstAt m.dynamicConfig (·.Lacks target) i v ∧ e = .missingValue v.field target := by
  have lacks : Fails (fun v : TargetValue => v.resolve target) = (·.Lacks target) := by
    funext v
    simp [Fails, TargetValue.resolve_eq_error_iff]
  have resolved : m.parameters target = .error e ↔
      m.dynamicConfig.mapM (·.resolve target) = .error e := by
    unfold parameters
    cases m.dynamicConfig.mapM (·.resolve target) <;> simp [bind, Except.bind, pure, Except.pure]
  rw [resolved, mapM_eq_error_iff, lacks]
  refine exists_congr fun i => exists_congr fun v => and_congr_right fun first => ?_
  rw [TargetValue.resolve_eq_error_iff, and_iff_right first.2.1]

/-- **Why a mechanism has no container**: something is wrong with it. -/
theorem build_eq_error_iff :
    m.build index target operation settings = .error e ↔ m.Fault target e := by
  rcases m.named_cases with ⟨known, format, hnamed⟩ | ⟨unknown, hnamed⟩
  · have steps : m.build index target operation settings = .error e ↔
        m.parameters target = .error e := by
      unfold build
      rw [hnamed]
      cases m.parameters target <;> simp [bind, Except.bind, pure, Except.pure]
    rw [steps, parameters_eq_error_iff]
    constructor
    · rintro ⟨i, v, first, rfl⟩
      exact .value known first
    · rintro (unknown | ⟨-, first⟩)
      · exact absurd known unknown
      · exact ⟨_, _, first, rfl⟩
  · have steps : m.build index target operation settings =
        .error (.unsupportedFormat m.argumentFormat) := by
      unfold build
      rw [hnamed]
      rfl
    rw [steps, Except.error.injEq]
    constructor
    · rintro rfl
      exact .format unknown
    · rintro (_ | ⟨known, -⟩)
      · rfl
      · exact absurd known unknown

/-- A mechanism has a container unless it cannot be carried out. -/
theorem exists_build_eq_error_iff :
    (∃ e, m.build index target operation settings = .error e) ↔ m.Faulty target := by
  simp only [build_eq_error_iff, exists_fault_iff]

/-- The command that parameters are added to: that of the mechanism, or else that of its driver. -/
def baseCommand (m : Mechanism) : List String :=
  m.command.getD (m.driver.defaultCommand m.agent)

/-- The container of a mechanism, once it is known how parameters are passed and which.  What is
passed on the command line follows the command, or is left to the image if there is none. -/
def partFor (m : Mechanism) (index : Nat) (target : String) (operation : Operation)
    (settings : BuildSettings) (format : ArgumentFormat) (parameters : List (String × String)) :
    PodPart :=
  let words := match format with
    | .cli => commandLine parameters m.passTargetAs target
    | .env => []
  let passed := match format with
    | .cli => []
    | .env => environment parameters m.passTargetAs target
  { container := {
      name := containerName index m.driver.name
      image := some (settings.imageFor m)
      command := if m.baseCommand = [] then [] else m.baseCommand ++ words
      args := if m.baseCommand = [] then words else []
      env := m.variables format operation ++ (m.secretParts index settings).env ++ passed
      mounts := (m.secretParts index settings).mounts }
    volumes := (m.secretParts index settings).volumes }

section Part

variable {part : PodPart} {format : ArgumentFormat} {parameters : List (String × String)}

theorem build_of_parameters (hformat : ArgumentFormat.named m.argumentFormat = .ok format)
    (hparameters : m.parameters target = .ok parameters) (index : Nat) (operation : Operation)
    (settings : BuildSettings) :
    m.build index target operation settings =
      .ok (m.partFor index target operation settings format parameters) := by
  unfold build partFor
  rw [hformat, hparameters]
  by_cases hempty : m.baseCommand = []
  · have hcommand : m.command.getD (m.driver.defaultCommand m.agent) = [] := hempty
    cases format <;> simp [bind, Except.bind, pure, Except.pure, hempty, hcommand]
  · have hcommand : m.command.getD (m.driver.defaultCommand m.agent) = m.baseCommand := rfl
    cases format <;> simp [bind, Except.bind, pure, Except.pure, hempty, hcommand]

/-- **What the container of a mechanism is**, if there is one. -/
theorem exists_partFor (h : m.build index target operation settings = .ok part) :
    ∃ format parameters, ArgumentFormat.named m.argumentFormat = .ok format ∧
      m.parameters target = .ok parameters ∧
      part = m.partFor index target operation settings format parameters := by
  have steps := h
  unfold build at steps
  obtain ⟨format, hformat, steps⟩ := bind_eq_ok_iff.mp steps
  obtain ⟨parameters, hparameters, -⟩ := bind_eq_ok_iff.mp steps
  rw [build_of_parameters hformat hparameters] at h
  exact ⟨format, parameters, hformat, hparameters, (Except.ok.inj h).symm⟩

/-- The position and the driver of a mechanism name its container. -/
theorem build_name (h : m.build index target operation settings = .ok part) :
    part.container.name = "fence-" ++ toString index ++ "-" ++ m.driver.name := by
  obtain ⟨format, parameters, -, -, rfl⟩ := exists_partFor h
  show containerName index m.driver.name = _
  unfold containerName
  cases m.driver <;> rfl

end Part

end Mechanism

/-! ### Methods -/

theorem buildParts_eq_mapM (mechanisms : List Mechanism) :
    buildParts target operation settings index mechanisms =
      (mechanisms.zipIdx index).mapM fun (m, i) => m.build i target operation settings := by
  induction mechanisms generalizing index with
  | nil => rfl
  | cons m rest ih => simp [buildParts, List.zipIdx_cons, List.mapM_cons, ih]

/-- **Why a method has no containers**: what is wrong with its first faulty mechanism. -/
theorem buildParts_eq_error_iff {mechanisms : List Mechanism} :
    buildParts target operation settings index mechanisms = .error e ↔
      ∃ i m, FirstAt mechanisms (·.Faulty target) i m ∧ m.Fault target e := by
  have faulty : Fails (fun entry : Mechanism × Nat =>
      entry.1.build entry.2 target operation settings) = fun entry => entry.1.Faulty target := by
    funext entry
    rw [Fails, Mechanism.exists_build_eq_error_iff]
  have counted {i : Nat} {entry : Mechanism × Nat} :
      FirstAt (mechanisms.zipIdx index) (fun entry => entry.1.Faulty target) i entry ↔
        FirstAt mechanisms (·.Faulty target) i entry.1 ∧ entry.2 = index + i :=
    firstAt_zipIdx (p := fun m : Mechanism => m.Faulty target)
  rw [buildParts_eq_mapM, mapM_eq_error_iff, faulty]
  simp only [Mechanism.build_eq_error_iff]
  constructor
  · rintro ⟨i, entry, first, hfault⟩
    exact ⟨i, entry.1, (counted.mp first).1, hfault⟩
  · rintro ⟨i, m, first, hfault⟩
    exact ⟨i, (m, index + i), counted.mpr ⟨first, rfl⟩, hfault⟩

/-- A method has a container for each mechanism, in their order. -/
theorem getElem?_of_buildParts {mechanisms : List Mechanism} {parts : List PodPart}
    (h : buildParts target operation settings index mechanisms = .ok parts) :
    parts.length = mechanisms.length ∧
      ∀ (i : Nat) (m : Mechanism), mechanisms[i]? = some m →
        ∃ part, parts[i]? = some part ∧
          m.build (index + i) target operation settings = .ok part := by
  rw [buildParts_eq_mapM] at h
  obtain ⟨hlength, hall⟩ := getElem?_of_mapM h
  refine ⟨by rw [hlength, List.length_zipIdx], fun i m hm => ?_⟩
  exact hall i (m, index + i) (by simp [List.getElem?_zipIdx, hm])

namespace Method

/-- A job has a container for each mechanism of a method, built from it and named for it, and all
the volumes of the mechanisms in their order. -/
def Assembled (m : Method) (r : Request) (settings : BuildSettings) (job : Job) : Prop :=
  ∃ (pod : PodSpec) (parts : List PodPart), job.spec.bind (·.template.spec) = some pod ∧
    pod.containers = parts.map PodPart.container ∧ pod.volumes = parts.flatMap PodPart.volumes ∧
    parts.length = m.mechanisms.length ∧
    ∀ (i : Nat) (mechanism : Mechanism), m.mechanisms[i]? = some mechanism →
      ∃ part, parts[i]? = some part ∧
        mechanism.build i r.target r.operation settings = .ok part ∧
        part.container.name = "fence-" ++ toString i ++ "-" ++ mechanism.driver.name

variable {m : Method} {c : Config} {r : Request}

/-- **Why a method has no job**: what is wrong with its first faulty mechanism is told together with
the name of the method. -/
theorem buildJob_eq_error_iff :
    m.buildJob c r settings = .error e ↔
      ∃ i mechanism cause, FirstAt m.mechanisms (·.Faulty r.target) i mechanism ∧
        mechanism.Fault r.target cause ∧ e = .methodAborted m.name cause := by
  have steps : m.buildJob c r settings = .error e ↔
      ∃ cause, buildParts r.target r.operation settings 0 m.mechanisms = .error cause ∧
        e = .methodAborted m.name cause := by
    unfold buildJob parts
    cases buildParts r.target r.operation settings 0 m.mechanisms with
    | error cause => simp [bind, Except.bind, eq_comm]
    | ok parts => simp [bind, Except.bind, pure, Except.pure]
  rw [steps]
  simp only [buildParts_eq_error_iff]
  constructor
  · rintro ⟨cause, ⟨i, mechanism, first, hfault⟩, rfl⟩
    exact ⟨i, mechanism, cause, first, hfault, rfl⟩
  · rintro ⟨i, mechanism, cause, first, hfault, rfl⟩
    exact ⟨cause, ⟨i, mechanism, first, hfault⟩, rfl⟩

/-- A method has a job unless one of its mechanisms cannot be carried out. -/
theorem exists_buildJob_eq_error_iff :
    (∃ e, m.buildJob c r settings = .error e) ↔
      ∃ mechanism ∈ m.mechanisms, mechanism.Faulty r.target := by
  rw [← exists_firstAt_iff]
  simp only [buildJob_eq_error_iff]
  constructor
  · rintro ⟨e, i, mechanism, -, first, -⟩
    exact ⟨i, mechanism, first⟩
  · rintro ⟨i, mechanism, first⟩
    obtain ⟨cause, hfault⟩ := Mechanism.exists_fault_iff.mpr first.2.1
    exact ⟨_, i, mechanism, cause, first, hfault, rfl⟩

theorem assembled_of_buildJob {job : Job} (h : m.buildJob c r settings = .ok job) :
    m.Assembled r settings job := by
  unfold buildJob parts at h
  cases hparts : buildParts r.target r.operation settings 0 m.mechanisms with
  | error cause => simp [hparts, bind, Except.bind] at h
  | ok parts =>
      simp only [hparts, bind, Except.bind, pure, Except.pure, Except.ok.injEq] at h
      subst h
      obtain ⟨hlength, hall⟩ := getElem?_of_buildParts hparts
      refine ⟨_, parts, rfl, rfl, rfl, hlength, fun i mechanism hmechanism => ?_⟩
      obtain ⟨part, hget, hbuild⟩ := hall i mechanism hmechanism
      rw [Nat.zero_add] at hbuild
      exact ⟨part, hget, hbuild, Mechanism.build_name hbuild⟩

/-- **A method is built as a whole or not at all**, for all requests, configurations and settings.

It fails exactly if one of its mechanisms is faulty.  Then the error names the method, and its cause
is what is wrong with the first faulty mechanism.  Otherwise there is a job with one container for
each mechanism and all their volumes. -/
theorem builds_all_or_nothing (m : Method) (c : Config) (r : Request) (settings : BuildSettings) :
    ((∃ e, m.buildJob c r settings = .error e) ↔ ∃ mechanism ∈ m.mechanisms,
        mechanism.Faulty r.target) ∧
      (∀ e, m.buildJob c r settings = .error e ↔
        ∃ i mechanism cause, FirstAt m.mechanisms (·.Faulty r.target) i mechanism ∧
          mechanism.Fault r.target cause ∧ e = .methodAborted m.name cause ∧
          e.message = "Method '" ++ m.name ++ "' aborted: " ++ cause.message) ∧
      ((∃ job, m.buildJob c r settings = .ok job ∧ m.Assembled r settings job) ↔
        ∀ mechanism ∈ m.mechanisms, ¬ mechanism.Faulty r.target) := by
  refine ⟨exists_buildJob_eq_error_iff, fun e => ?_, ?_⟩
  · rw [buildJob_eq_error_iff]
    refine exists_congr fun i => exists_congr fun mechanism => exists_congr fun cause =>
      and_congr_right fun _ => and_congr_right fun _ => (and_iff_left_of_imp ?_).symm
    rintro rfl
    rfl
  · have fails := @exists_buildJob_eq_error_iff settings m c r
    constructor
    · rintro ⟨job, hjob, -⟩ mechanism hmem hfaulty
      obtain ⟨e, herror⟩ := fails.mpr ⟨mechanism, hmem, hfaulty⟩
      rw [hjob] at herror
      cases herror
    · intro sound
      cases hjob : m.buildJob c r settings with
      | error e =>
          obtain ⟨mechanism, hmem, hfaulty⟩ := fails.mp ⟨e, hjob⟩
          exact absurd hfaulty (sound mechanism hmem)
      | ok job => exact ⟨job, rfl, assembled_of_buildJob hjob⟩

/-- Two faulty mechanisms behind one that is not.  The second one lacks a value, for its fallback is
empty. -/
def twoFaults : Method where
  name := "power"
  mechanisms := [{}, { dynamicConfig := [{ field := "ip", fallback := some "" }] },
    { argumentFormat := "json" }]

example : (twoFaults.parts { target := "node-1" } {}).mapError FencingError.message =
    .error "Method 'power' aborted: No value of 'ip' found for 'node-1'" := by
  rfl

end Method

end NodeFencing
