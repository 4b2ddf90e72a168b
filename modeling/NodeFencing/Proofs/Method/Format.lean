import NodeFencing.Proofs.Method.Secret

/-!
# Two ways to pass parameters

A mechanism passes its parameters on the command line or in the environment.  The same
mechanism is built in both ways here, and the two containers are compared.  Either there is
none for the same reason, or both have the same image and see the same secrets, and the
parameters that one has as flags with values the other one has as variables, in the same
order.

The name of the node is passed in both.  It stands at the end of the command line, behind a
flag if the mechanism names one, and an empty name counts as none.  In the environment an
empty name counts: there the node is passed in a variable without a name.

## Main Definitions

* `TargetValue.Gives` — the value of a parameter for a node
* `Mechanism.Resolved` — the parameters of a mechanism for a node
* `Mechanism.passing` — the same mechanism with another way to pass parameters
* `Mechanism.SameInformation` — two containers that pass the same in both ways
* `Mechanism.FormatsAgree` — both ways fail alike, or both pass the same

## Main statements

* `Mechanism.resolved_of_parameters` — the parameters that are passed
* `Mechanism.builds_both` — what comes of a mechanism in both ways
* `Mechanism.formats_agree_iff` — both ways agree unless the flag has the empty name
-/

namespace NodeFencing

/-! ### Values of parameters -/

/-- The value of a parameter for a node: its own, or else a fallback that is not empty. -/
inductive TargetValue.Gives (v : TargetValue) (target : String) : String → Prop where
  | own {value : String} (h : v.values.get? target = some value) : Gives v target value
  | fallback {value : String} (none : target ∉ v.values.keys) (h : v.fallback = some value)
      (nonempty : value ≠ "") : Gives v target value

theorem TargetValue.gives_of_resolve {v : TargetValue} {target : String}
    {parameter : String × String} (h : v.resolve target = .ok parameter) :
    parameter.1 = v.field ∧ v.Gives target parameter.2 := by
  unfold resolve at h
  split at h
  · next value hlookup =>
      obtain rfl : (v.field, value) = parameter := Except.ok.inj h
      refine ⟨rfl, ?_⟩
      unfold lookup at hlookup
      split at hlookup
      · next own hown =>
          obtain rfl : own = value := Option.some.inj hlookup
          exact .own hown
      · next hnone =>
          obtain ⟨hfallback, hvalue⟩ := Option.filter_eq_some_iff.mp hlookup
          exact .fallback (StringMap.get?_eq_none_iff.mp hnone) hfallback (by simpa using hvalue)
  · cases h

namespace Mechanism

variable {m : Mechanism} {index : Nat} {target : String} {operation : Operation}
  {settings : BuildSettings}

/-- The parameters of a mechanism for a node: those that are the same for all nodes, in their
order, and behind them one for each that depends on the node. -/
def Resolved (m : Mechanism) (target : String) (parameters : List (String × String)) : Prop :=
  ∃ resolved, parameters = m.config ++ resolved ∧
    m.dynamicConfig.Forall₂ (fun v parameter =>
      parameter.1 = v.field ∧ v.Gives target parameter.2) resolved

theorem Resolved.length_eq {parameters : List (String × String)}
    (h : m.Resolved target parameters) :
    parameters.length = m.config.length + m.dynamicConfig.length := by
  obtain ⟨resolved, rfl, hall⟩ := h
  rw [List.length_append, hall.length_eq]

/-- **The parameters that are passed.** -/
theorem resolved_of_parameters {parameters : List (String × String)}
    (h : m.parameters target = .ok parameters) : m.Resolved target parameters := by
  unfold Mechanism.parameters at h
  obtain ⟨resolved, hresolved, h⟩ := bind_eq_ok_iff.mp h
  obtain rfl : m.config ++ resolved = parameters := Except.ok.inj h
  obtain ⟨hlength, hall⟩ := getElem?_of_mapM hresolved
  refine ⟨resolved, rfl, List.forall₂_iff_get.mpr ⟨hlength.symm, fun i hi hi' => ?_⟩⟩
  obtain ⟨parameter, hget, hvalue⟩ := hall i _ (List.getElem?_eq_getElem hi)
  obtain ⟨_, rfl⟩ := List.getElem?_eq_some_iff.mp hget
  exact TargetValue.gives_of_resolve hvalue

/-! ### Both ways -/

/-- The same mechanism with another way to pass parameters. -/
def passing (m : Mechanism) (format : ArgumentFormat) : Mechanism :=
  { m with argumentFormat := format.name }

/-- The name under which the name of the node is passed, unless there is none or it is empty. -/
def targetNames (m : Mechanism) : List String :=
  match m.passTargetAs with
  | none => []
  | some name => if name = "" then [] else [name]

/-- The further variables of a mechanism. -/
def ownVariables (m : Mechanism) : List EnvVar :=
  m.env.map fun (key, value) => ⟨key, some value⟩

/-- The operation, the time limit if there is one, and the paths of secrets. -/
def fixedVariables (m : Mechanism) (operation : Operation) (settings : BuildSettings) :
    List EnvVar :=
  ⟨"FENCING_OPERATION", some operation.name⟩
    :: m.timeoutSeconds.toList.map (fun limit => ⟨"FENCING_TIMEOUT_SECONDS", some (toString limit)⟩)
    ++ m.secrets.map (secretVariable settings)

/-- The variables of a container that do not depend on how parameters are passed. -/
def commonVariables (m : Mechanism) (operation : Operation) (settings : BuildSettings) :
    List EnvVar :=
  m.ownVariables ++ m.fixedVariables operation settings

/-- Of two containers one passes on the command line what the other one passes in the environment.
The other one has the name of the node in variables of the given names. -/
structure SameInformation (m : Mechanism) (target : String) (operation : Operation)
    (settings : BuildSettings) (names : List String) (cli env : PodPart) : Prop where
  image : cli.container.image = env.container.image
  volumes : cli.volumes = env.volumes
  mounts : cli.container.mounts = env.container.mounts
  passed : ∃ parameters, m.Resolved target parameters ∧
    cli.container.command ++ cli.container.args =
      m.baseCommand ++ parameters.flatMap (fun (key, value) => ["--" ++ key, value])
        ++ m.targetNames.map ("--" ++ ·) ++ [target] ∧
    cli.container.env = ⟨"SECRET_FORMAT", some "cli"⟩ :: m.commonVariables operation settings ∧
    env.container.command = m.baseCommand ∧ env.container.args = [] ∧
    env.container.env = ⟨"SECRET_FORMAT", some "env"⟩ :: m.commonVariables operation settings
      ++ parameters.map (fun (key, value) => ⟨key, some value⟩)
      ++ names.map (⟨·, some target⟩)

/-- Both ways to pass parameters fail for the same reason, or both pass the same. -/
def FormatsAgree (m : Mechanism) (index : Nat) (target : String) (operation : Operation)
    (settings : BuildSettings) : Prop :=
  (∃ e, (m.passing .cli).build index target operation settings = .error e ∧
    (m.passing .env).build index target operation settings = .error e) ∨
  ∃ cli env, (m.passing .cli).build index target operation settings = .ok cli ∧
    (m.passing .env).build index target operation settings = .ok env ∧
    m.SameInformation target operation settings m.targetNames cli env

/-- The variables of a container in front of those that pass parameters. -/
theorem variables_append_secrets (m : Mechanism) (index : Nat) (format : ArgumentFormat)
    (operation : Operation) (settings : BuildSettings) :
    m.variables format operation ++ (m.secretParts index settings).env =
      ⟨"SECRET_FORMAT", some format.name⟩ :: m.commonVariables operation settings := by
  rw [secretParts_eq]
  simp only [Mechanism.variables, commonVariables, fixedVariables, SecretParts.holding,
    List.append_assoc, List.cons_append]
  rfl

theorem targetNames_eq : m.targetNames = (m.passTargetAs.filter (· != "")).toList := by
  unfold targetNames
  cases m.passTargetAs with
  | none => rfl
  | some name => by_cases h : name = "" <;> simp [Option.filter, h]

section Parts

variable {parameters : List (String × String)}

/-- The container that passes parameters on the command line.  Without a command they are its
arguments, else they follow the command. -/
theorem build_passing_cli (h : m.parameters target = .ok parameters) (index : Nat)
    (operation : Operation) (settings : BuildSettings) :
    ∃ part, (m.passing .cli).build index target operation settings = .ok part ∧
      part.container.image = some (settings.imageFor m) ∧
      part.volumes = (m.secretParts index settings).volumes ∧
      part.container.mounts = (m.secretParts index settings).mounts ∧
      part.container.command ++ part.container.args =
        m.baseCommand ++ commandLine parameters m.passTargetAs target ∧
      part.container.env =
        ⟨"SECRET_FORMAT", some "cli"⟩ :: m.commonVariables operation settings := by
  have named : ArgumentFormat.named (m.passing .cli).argumentFormat = .ok .cli := rfl
  have hparameters : (m.passing .cli).parameters target = .ok parameters := h
  refine ⟨_, build_of_parameters named hparameters index operation settings, rfl, rfl, rfl, ?_, ?_⟩
  · show (if m.baseCommand = [] then _ else _) ++ (if m.baseCommand = [] then _ else []) = _
    by_cases hempty : m.baseCommand = []
    · rw [if_pos hempty, if_pos hempty, hempty]
      rfl
    · rw [if_neg hempty, if_neg hempty, List.append_nil]
      rfl
  · exact (List.append_nil _).trans (m.variables_append_secrets index .cli operation settings)

/-- The container that passes parameters in the environment. -/
theorem build_passing_env (h : m.parameters target = .ok parameters) (index : Nat)
    (operation : Operation) (settings : BuildSettings) :
    ∃ part, (m.passing .env).build index target operation settings = .ok part ∧
      part.container.image = some (settings.imageFor m) ∧
      part.volumes = (m.secretParts index settings).volumes ∧
      part.container.mounts = (m.secretParts index settings).mounts ∧
      part.container.command = m.baseCommand ∧ part.container.args = [] ∧
      part.container.env = ⟨"SECRET_FORMAT", some "env"⟩ :: m.commonVariables operation settings
        ++ environment parameters m.passTargetAs target := by
  have named : ArgumentFormat.named (m.passing .env).argumentFormat = .ok .env := rfl
  have hparameters : (m.passing .env).parameters target = .ok parameters := h
  refine ⟨_, build_of_parameters named hparameters index operation settings, rfl, rfl, rfl, ?_,
    ite_self [], ?_⟩
  · show (if m.baseCommand = [] then [] else m.baseCommand ++ []) = m.baseCommand
    by_cases hempty : m.baseCommand = []
    · rw [if_pos hempty, hempty]
    · rw [if_neg hempty, List.append_nil]
  · exact congrArg (· ++ _) (m.variables_append_secrets index .env operation settings)

/-- What hinders the one way hinders the other one. -/
theorem build_passing_error {e : FencingError} (h : m.parameters target = .error e)
    (format : ArgumentFormat) :
    (m.passing format).build index target operation settings = .error e := by
  have named : ArgumentFormat.named (m.passing format).argumentFormat = .ok format := by
    cases format <;> rfl
  have hparameters : (m.passing format).parameters target = .error e := h
  unfold build
  rw [named, hparameters]
  rfl

end Parts

/-- **What comes of a mechanism in both ways.**  In the environment the node is passed under any
name that there is. -/
theorem builds_both {parameters : List (String × String)}
    (h : m.parameters target = .ok parameters) (index : Nat) (operation : Operation)
    (settings : BuildSettings) :
    ∃ cli env, (m.passing .cli).build index target operation settings = .ok cli ∧
      (m.passing .env).build index target operation settings = .ok env ∧
      m.SameInformation target operation settings m.passTargetAs.toList cli env := by
  obtain ⟨cli, hcli, himage, hvolumes, hmounts, hwords, henv⟩ :=
    build_passing_cli h index operation settings
  obtain ⟨env, hbuild, himage', hvolumes', hmounts', hcommand, hargs, henv'⟩ :=
    build_passing_env h index operation settings
  refine ⟨cli, env, hcli, hbuild, himage.trans himage'.symm, hvolumes.trans hvolumes'.symm,
    hmounts.trans hmounts'.symm, parameters, resolved_of_parameters h, ?_, henv, hcommand, hargs,
    ?_⟩
  · rw [hwords, commandLine, targetNames_eq]
    simp only [List.append_assoc]
  · rw [henv', environment, List.append_assoc]

/-- A mechanism has parameters for a node unless one of them has no value for it. -/
theorem exists_parameters_eq_error_iff :
    (∃ e, m.parameters target = .error e) ↔ ∃ v ∈ m.dynamicConfig, v.Lacks target := by
  rw [← exists_firstAt_iff]
  simp only [parameters_eq_error_iff]
  constructor
  · rintro ⟨_, i, v, first, -⟩
    exact ⟨i, v, first⟩
  · rintro ⟨i, v, first⟩
    exact ⟨_, i, v, first, rfl⟩

/-- How many variables a container has that passes parameters in the environment. -/
theorem SameInformation.length_env {names : List String} {cli env : PodPart}
    (h : m.SameInformation target operation settings names cli env) :
    env.container.env.length = cli.container.env.length
      + (m.config.length + m.dynamicConfig.length) + names.length := by
  obtain ⟨parameters, hresolved, -, hcli, -, -, henv⟩ := h.passed
  rw [henv, hcli]
  simp [← hresolved.length_eq]
  omega

/-- **Both ways to pass parameters agree**, for all mechanisms, positions, nodes, operations and
settings, unless the name under which the node is passed is empty.  Then they agree only if a
parameter has no value, so that there is no container. -/
theorem formats_agree_iff (m : Mechanism) (index : Nat) (target : String) (operation : Operation)
    (settings : BuildSettings) :
    m.FormatsAgree index target operation settings ↔
      (m.passTargetAs = some "" → ∃ v ∈ m.dynamicConfig, v.Lacks target) := by
  rw [← exists_parameters_eq_error_iff]
  cases hparameters : m.parameters target with
  | error e =>
      refine ⟨fun _ _ => ⟨e, rfl⟩, fun _ => .inl ⟨e, ?_, ?_⟩⟩
      · exact build_passing_error hparameters .cli
      · exact build_passing_error hparameters .env
  | ok parameters =>
      obtain ⟨cli, env, hcli, henv, same⟩ := builds_both hparameters index operation settings
      unfold FormatsAgree
      rw [hcli, henv]
      constructor
      · rintro (⟨e, failed, -⟩ | ⟨_, _, ⟨⟩, ⟨⟩, agreed⟩) hname
        · cases failed
        · -- The variable without a name is one too many.
          have sizes := same.length_env.symm.trans agreed.length_env
          simp [targetNames, hname] at sizes
      · intro named
        refine .inr ⟨cli, env, rfl, rfl, ?_⟩
        have names : m.targetNames = m.passTargetAs.toList := by
          unfold targetNames
          cases hname : m.passTargetAs with
          | none => rfl
          | some name =>
              refine if_neg ?_
              rintro rfl
              obtain ⟨e, failed⟩ := named hname
              cases failed
        exact names ▸ same

/-- A mechanism that passes the node under the empty name. -/
def namelessTarget : Mechanism where
  passTargetAs := some ""
  config := [("port", "623")]

/-- In the environment it has a variable without a name, for which the command line has no flag. -/
theorem nameless_not_agree : ¬ namelessTarget.FormatsAgree 0 "node-1" .off {} := by
  rintro (⟨e, failed, -⟩ | ⟨cli, env, hcli, henv, agreed⟩)
  · cases failed
  · obtain rfl := Except.ok.inj hcli
    obtain rfl := Except.ok.inj henv
    exact absurd agreed.length_env (by decide)

end Mechanism

end NodeFencing
