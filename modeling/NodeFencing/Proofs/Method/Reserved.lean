import NodeFencing.Proofs.Config.Gathering
import NodeFencing.Proofs.Method.Format

/-!
# Variables with reserved names

Some variables of a container have names that are reserved: they tell how parameters are
passed, what is asked for, how long it may take, and where secrets are.  Other variables have
names that the configuration chooses, and these may be the same.  Of several variables of one
name a program sees the last one.

Secrets are known under different names, for no key stands twice in a map that is read
(`StringMap.nodup_keys_ofValue`), and so are the variables that tell where they are.

A reserved variable is seen unless one with a chosen name stands behind it.  Further
variables of the mechanism stand behind the one that tells how parameters are passed, and in
front of all others.  Parameters and the node stand behind all of them, if they are passed in
the environment.

## Main Definitions

* `effective?` — the variable of a name that is seen
* `Mechanism.Reserves` — the variables with reserved names
* `Mechanism.chosenBehind` — the variables with chosen names behind a reserved one

## Main statements

* `effective?_append` — what stands behind goes first
* `Mechanism.build_env` — the variables of a container
* `Mechanism.effective_reserved` — the variable that is seen under a reserved name
* `Mechanism.reserved_effective_iff` — when a reserved variable is seen
-/

namespace NodeFencing

/-! ### Variables that are seen -/

/-- The variable of a name that a program sees: the last one of several. -/
def effective? (env : List EnvVar) (name : String) : Option EnvVar :=
  env.reverse.find? (·.name == name)

section Effective

variable {env front back : List EnvVar} {name : String} {v : EnvVar}

theorem effective?_append :
    effective? (front ++ back) name = (effective? back name).or (effective? front name) := by
  unfold effective?
  rw [List.reverse_append, List.find?_append]

/-- A variable is seen unless one of its name follows. -/
theorem effective?_cons :
    effective? (v :: env) v.name = (effective? env v.name).or (some v) := by
  rw [← List.singleton_append, effective?_append]
  simp [effective?]

theorem effective?_eq_none_iff : effective? env name = none ↔ name ∉ env.map (·.name) := by
  simp [effective?, List.find?_eq_none]

/-- Where no name stands twice, every variable is seen. -/
theorem effective?_of_nodup (distinct : (env.map (·.name)).Nodup) (h : v ∈ env) :
    effective? env v.name = some v := by
  induction env with
  | nil => cases h
  | cons head rest ih =>
      rw [List.map_cons, List.nodup_cons] at distinct
      rcases List.mem_cons.mp h with rfl | hrest
      · rw [effective?_cons, effective?_eq_none_iff.mpr distinct.1, Option.none_or]
      · rw [← List.singleton_append, effective?_append, ih distinct.2 hrest, Option.some_or]

end Effective

/-! ### Reserved names -/

/-- The names of variables for secrets begin alike. -/
theorem notMem_secretNames (keys : List String) (name : String)
    (h : ¬ "SECRETPATH_".toList <+: name.toList) : name ∉ keys.map ("SECRETPATH_" ++ ·) := by
  intro hmem
  obtain ⟨key, -, rfl⟩ := List.mem_map.mp hmem
  rw [String.toList_append] at h
  exact h (List.prefix_append _ _)

/-- A way to pass parameters is known by its name. -/
theorem ArgumentFormat.name_of_named {text : String} {format : ArgumentFormat}
    (h : ArgumentFormat.named text = .ok format) : format.name = text := by
  unfold named at h
  split at h
  · next found hfound =>
      obtain rfl := Except.ok.inj h
      simpa using List.find?_some hfound
  · cases h

namespace Mechanism

variable {m : Mechanism} {index : Nat} {target : String} {operation : Operation}
  {settings : BuildSettings} {part : PodPart} {parameters : List (String × String)}

/-- The variables of a mechanism with reserved names. -/
inductive Reserves (m : Mechanism) (operation : Operation) (settings : BuildSettings) :
    EnvVar → Prop where
  | format : Reserves m operation settings ⟨"SECRET_FORMAT", some m.argumentFormat⟩
  | operation : Reserves m operation settings ⟨"FENCING_OPERATION", some operation.name⟩
  | limit {limit : Nat} (h : m.timeoutSeconds = some limit) :
      Reserves m operation settings ⟨"FENCING_TIMEOUT_SECONDS", some (toString limit)⟩
  | secret {entry : String × String} (h : entry ∈ m.secrets) :
      Reserves m operation settings
        ⟨"SECRETPATH_" ++ entry.1, some (settings.secretPath entry.2)⟩

/-- The variables that pass parameters and the node, if they are passed in the environment. -/
def passedVariables (m : Mechanism) (target : String) (parameters : List (String × String)) :
    List EnvVar :=
  if m.argumentFormat = "env" then environment parameters m.passTargetAs target else []

/-- The variables behind the one of a reserved name whose names the configuration chooses. -/
def chosenBehind (m : Mechanism) (target : String) (parameters : List (String × String))
    (name : String) : List EnvVar :=
  (if name = "SECRET_FORMAT" then m.ownVariables else []) ++ m.passedVariables target parameters

/-- A reserved variable is the one that tells how parameters are passed, or one of those behind the
further variables. -/
theorem Reserves.cases {v : EnvVar} (h : m.Reserves operation settings v) :
    v = ⟨"SECRET_FORMAT", some m.argumentFormat⟩ ∨ v ∈ m.fixedVariables operation settings := by
  unfold fixedVariables
  cases h with
  | format => exact .inl rfl
  | operation => exact .inr (by simp)
  | limit hlimit => exact .inr (by simp [hlimit])
  | secret hentry => exact .inr (List.mem_append_right _ (List.mem_map_of_mem hentry))

theorem names_fixedVariables :
    (m.fixedVariables operation settings).map (·.name) =
      "FENCING_OPERATION" :: m.timeoutSeconds.toList.map (fun _ => "FENCING_TIMEOUT_SECONDS")
        ++ m.secrets.keys.map ("SECRETPATH_" ++ ·) := by
  simp [fixedVariables, StringMap.keys, secretVariable, Function.comp_def]

theorem format_notMem_names :
    "SECRET_FORMAT" ∉ (m.fixedVariables operation settings).map (·.name) := by
  have secrets := notMem_secretNames m.secrets.keys "SECRET_FORMAT" (by decide)
  rw [names_fixedVariables]
  cases m.timeoutSeconds with
  | none => exact List.not_mem_cons_of_ne_of_not_mem (by decide) secrets
  | some limit =>
      exact List.not_mem_cons_of_ne_of_not_mem (by decide)
        (List.not_mem_cons_of_ne_of_not_mem (by simp) secrets)

/-- No two of these variables have one name, if secrets are known under different names. -/
theorem nodup_names (distinct : m.secrets.keys.Nodup) :
    ((m.fixedVariables operation settings).map (·.name)).Nodup := by
  have secrets : (m.secrets.keys.map ("SECRETPATH_" ++ ·)).Nodup :=
    distinct.map fun _ _ => (String.append_right_inj _).mp
  have operationApart := notMem_secretNames m.secrets.keys "FENCING_OPERATION" (by decide)
  have limitApart := notMem_secretNames m.secrets.keys "FENCING_TIMEOUT_SECONDS" (by decide)
  rw [names_fixedVariables]
  cases m.timeoutSeconds with
  | none => exact List.nodup_cons.mpr ⟨operationApart, secrets⟩
  | some limit =>
      refine List.nodup_cons.mpr ⟨?_, List.nodup_cons.mpr ⟨limitApart, secrets⟩⟩
      exact List.not_mem_cons_of_ne_of_not_mem (by simp) operationApart

/-- **The variables of a container** in their order. -/
theorem build_env (h : m.build index target operation settings = .ok part) :
    ∃ parameters, m.Resolved target parameters ∧
      part.container.env = ⟨"SECRET_FORMAT", some m.argumentFormat⟩ :: m.ownVariables
        ++ m.fixedVariables operation settings ++ m.passedVariables target parameters := by
  obtain ⟨format, parameters, hnamed, hparameters, -, -, henv⟩ := build_ok h
  refine ⟨parameters, resolved_of_parameters hparameters, ?_⟩
  rw [henv, variables_append_secrets, passedVariables, ← ArgumentFormat.name_of_named hnamed]
  cases format with
  | cli => rfl
  | env => rfl

/-- **The variable that is seen under a reserved name** is the last one that is chosen behind the
reserved one, if there is any, and else the reserved one. -/
theorem effective_reserved (distinct : m.secrets.keys.Nodup) {v : EnvVar}
    (hv : m.Reserves operation settings v) :
    effective? (⟨"SECRET_FORMAT", some m.argumentFormat⟩ :: m.ownVariables
        ++ m.fixedVariables operation settings ++ m.passedVariables target parameters) v.name =
      (effective? (m.chosenBehind target parameters v.name) v.name).or (some v) := by
  unfold chosenBehind
  rw [effective?_append, effective?_append, effective?_append]
  rcases hv.cases with rfl | hfixed
  · -- Fixed variables do not have this name.
    rw [effective?_eq_none_iff.mpr format_notMem_names, Option.none_or, effective?_cons,
      if_pos rfl, Option.or_assoc]
  · have other : v.name ≠ "SECRET_FORMAT" := by
      intro heq
      have hmem := List.mem_map_of_mem (f := EnvVar.name) hfixed
      exact format_notMem_names (heq ▸ hmem)
    rw [effective?_of_nodup (nodup_names distinct) hfixed, Option.some_or, if_neg other]
    simp [effective?]

/-- **When a reserved variable is seen**, for all mechanisms, positions, nodes, operations and
settings for which there is a container: exactly if the variables behind it whose names are chosen
have none of its name, or if the last one of these is the same.  Secrets are known under different
names here, as they are if they have been read. -/
theorem reserved_effective_iff (h : m.build index target operation settings = .ok part)
    (distinct : m.secrets.keys.Nodup) :
    ∃ parameters, m.Resolved target parameters ∧
      ∀ v, m.Reserves operation settings v →
        (effective? part.container.env v.name = some v ↔
          ∀ w, effective? (m.chosenBehind target parameters v.name) v.name = some w → w = v) := by
  obtain ⟨parameters, hresolved, henv⟩ := build_env h
  refine ⟨parameters, hresolved, fun v hv => ?_⟩
  rw [henv, effective_reserved distinct hv]
  cases effective? (m.chosenBehind target parameters v.name) v.name with
  | none => simp
  | some w => simp

/-- A mechanism whose variables and parameters have reserved names. -/
def contested : Mechanism where
  argumentFormat := "env"
  env := [("FENCING_OPERATION", "On"), ("SECRET_FORMAT", "env")]
  config := [("FENCING_OPERATION", "Reset")]
  secrets := [("user", "bmc"), ("password", "bmc")]
  passTargetAs := some "SECRETPATH"

/-- Of its reserved variables those are seen of whose name there is none behind, or the same one.
Its operation is not seen. -/
theorem reserved_effective_iff_contested :
    contested.secrets.keys.Nodup ∧ ∃ part, contested.build 0 "node-1" .off {} = .ok part ∧
      effective? part.container.env "SECRET_FORMAT" = some ⟨"SECRET_FORMAT", some "env"⟩ ∧
      effective? part.container.env "SECRETPATH_password" =
        some ⟨"SECRETPATH_password", some "/bmc"⟩ ∧
      effective? part.container.env "FENCING_OPERATION" ≠
        some ⟨"FENCING_OPERATION", some "Off"⟩ := by
  have distinct : contested.secrets.keys.Nodup := by decide
  have password : ("password", "bmc") ∈ contested.secrets := by decide
  have builds : contested.build 0 "node-1" .off {} = .ok _ := rfl
  obtain ⟨_, ⟨resolved, rfl, hall⟩, seen⟩ := reserved_effective_iff builds distinct
  cases hall
  refine ⟨distinct, _, rfl, (seen _ .format).mpr ?_, (seen _ (.secret password)).mpr ?_,
    fun heq => ?_⟩
  · rintro _ ⟨⟩
    rfl
  · rintro _ ⟨⟩
  · exact absurd ((seen _ .operation).mp heq _ rfl) (by decide)

/-- A mechanism that passes parameters on the command line and has a further variable of a reserved
name. -/
def formatHidden : Mechanism where
  env := [("SECRET_FORMAT", "json")]

/-- The variable that tells how parameters are passed is not seen. -/
theorem format_hidden :
    ∃ part, formatHidden.build 0 "node-1" .off {} = .ok part ∧
      ¬ ∀ v, formatHidden.Reserves .off {} v → effective? part.container.env v.name = some v := by
  refine ⟨_, rfl, fun seen => ?_⟩
  exact absurd (seen _ .format) (by decide)

end Mechanism

end NodeFencing
