import NodeFencing.Config.Basic
import NodeFencing.FencingError
import NodeFencing.Naming
import NodeFencing.Object.Pod
import NodeFencing.Request.Basic

/-!
# From a mechanism to a container

A mechanism becomes a container of a pod.  Its parameters are passed on the command line
or in the environment.  Secrets are never passed as values: each is mounted as a volume
of its own, and a variable tells where.

## Main Definitions

* `ArgumentFormat` — how parameters are passed
* `BuildSettings` — what mechanisms have in common
* `PodPart` — a container with the volumes that it mounts
* `Mechanism.build` — the container that carries out a mechanism
-/

namespace NodeFencing

/-! ### Parameters -/

/-- How parameters are passed. -/
inductive ArgumentFormat where
  /-- As flags with values on the command line. -/
  | cli
  /-- As environment variables. -/
  | env
  deriving Repr, DecidableEq, Inhabited

namespace ArgumentFormat

/-- The name of a format. -/
def name : ArgumentFormat → String
  | cli => "cli"
  | env => "env"

/-- The format of a name. -/
def named (name : String) : Except FencingError ArgumentFormat :=
  match [cli, env].find? (·.name == name) with
  | some format => .ok format
  | none => .error (.unsupportedFormat name)

end ArgumentFormat

/-- A parameter with its value for a node. -/
def TargetValue.resolve (v : TargetValue) (target : String) :
    Except FencingError (String × String) :=
  match v.lookup target with
  | some value => .ok (v.field, value)
  | none => .error (.missingValue v.field target)

/-- The parameters of a mechanism for a node: those that are the same for all nodes, and behind
them those that depend on the node. -/
def Mechanism.parameters (m : Mechanism) (target : String) :
    Except FencingError (List (String × String)) := do
  let resolved ← m.dynamicConfig.mapM (·.resolve target)
  return m.config ++ resolved

/-- The arguments that pass parameters and the name of the node on a command line. -/
def commandLine (parameters : List (String × String)) (passTargetAs : Option String)
    (target : String) : List String :=
  parameters.flatMap (fun (key, value) => ["--" ++ key, value])
    ++ (passTargetAs.filter (· != "")).toList.map ("--" ++ ·)
    ++ [target]

/-- The variables that pass parameters and the name of the node in an environment. -/
def environment (parameters : List (String × String)) (passTargetAs : Option String)
    (target : String) : List EnvVar :=
  parameters.map (fun (key, value) => ⟨key, some value⟩)
    ++ passTargetAs.toList.map fun name => ⟨name, some target⟩

/-! ### Containers -/

/-- What mechanisms have in common. -/
structure BuildSettings where
  /-- The directory below which secrets are mounted. -/
  secretsRoot : String := ""
  /-- The image of mechanisms for which no other is known. -/
  operatorImage : String := ""
  /-- Images by the name of a driver, in place of those that drivers have by default. -/
  driverImages : StringMap String := []
  deriving Repr, DecidableEq, Inhabited

namespace BuildSettings

/-- The image of a mechanism: its own, the one set for its driver, the default of the driver, or
the image for all others, whichever comes first. -/
def imageFor (s : BuildSettings) (m : Mechanism) : String :=
  ((m.image.filter (· != "")) <|> s.driverImages.get? m.driver.name <|> m.driver.defaultImage?).getD
    s.operatorImage

/-- Where a secret is mounted. -/
def secretPath (s : BuildSettings) (secret : String) : String :=
  String.ofList (trimEnd (· != '/') s.secretsRoot.toList) ++ "/" ++ secret

end BuildSettings

/-- A container with the volumes that it mounts. -/
structure PodPart where
  container : Container
  volumes : List Volume
  deriving Repr, DecidableEq, Inhabited

/-- What the secrets of a mechanism add to its container. -/
structure SecretParts where
  env : List EnvVar := []
  volumes : List Volume := []
  mounts : List Mount := []
  deriving Repr, DecidableEq, Inhabited

/-- Add a secret.  A volume of the same name is not added again, nor is its mount. -/
def SecretParts.add (settings : BuildSettings) (index : Nat) (parts : SecretParts)
    (entry : String × String) : SecretParts :=
  let (name, secret) := entry
  let path := settings.secretPath secret
  let exported : EnvVar := ⟨"SECRETPATH_" ++ name, some path⟩
  let parts := { parts with env := parts.env ++ [exported] }
  let volume := secretVolumeName index secret
  if parts.volumes.any (·.name == volume) then parts
  else
    let held : Volume := { name := volume, source := .secret (some secret) }
    let mount : Mount := { name := volume, path, readOnly := some true }
    { parts with volumes := parts.volumes ++ [held], mounts := parts.mounts ++ [mount] }

/-- What the secrets of a mechanism add to its container. -/
def Mechanism.secretParts (m : Mechanism) (index : Nat) (settings : BuildSettings) : SecretParts :=
  m.secrets.foldl (SecretParts.add settings index) {}

/-- The variables of every container: the format, those of the mechanism, the operation and the
time limit. -/
def Mechanism.variables (m : Mechanism) (format : ArgumentFormat) (operation : Operation) :
    List EnvVar :=
  [⟨"SECRET_FORMAT", some format.name⟩]
    ++ m.env.map (fun (key, value) => ⟨key, some value⟩)
    ++ [⟨"FENCING_OPERATION", some operation.name⟩]
    ++ m.timeoutSeconds.toList.map
      fun limit => ⟨"FENCING_TIMEOUT_SECONDS", some (String.ofList (digitsOfNat limit))⟩

/-- The container that carries out a mechanism, which stands at a position in its method.  On the
command line, arguments follow the command; without a command they are left to the image. -/
def Mechanism.build (m : Mechanism) (index : Nat) (target : String) (operation : Operation)
    (settings : BuildSettings) : Except FencingError PodPart := do
  let format ← ArgumentFormat.named m.argumentFormat
  let parameters ← m.parameters target
  let command := m.command.getD (m.driver.defaultCommand m.agent)
  let secrets := m.secretParts index settings
  let env := m.variables format operation ++ secrets.env
  let base : Container := {
    name := containerName index m.driver.name
    image := some (settings.imageFor m)
    mounts := secrets.mounts }
  let container := match format with
    | .cli =>
      let arguments := commandLine parameters m.passTargetAs target
      if command.isEmpty then { base with args := arguments, env }
      else { base with command := command ++ arguments, env }
    | .env => { base with command, env := env ++ environment parameters m.passTargetAs target }
  return { container, volumes := secrets.volumes }

end NodeFencing
