import NodeFencing.Proofs.Config.Usable
import NodeFencing.Proofs.Method.Format
import NodeFencing.Proofs.Registry

/-!
# What a custom mechanism runs

The driver of a custom mechanism knows no program, so the mechanism has to name image and
command itself.  A configuration is accepted only if it does.  Its command is then the
beginning of what its container runs, whatever the way in which parameters are passed.

With the image it is not so.  An image with an empty name is accepted, for there is one.  But
where the container is made, an empty name counts as none: the container runs the image that
the settings have for custom mechanisms, or else the one for all others.  This is the only
case in which a custom mechanism does not run what it declares.

## Main Definitions

* `BuildSettings.customImage` — the image of a custom mechanism that names none

## Main statements

* `Mechanism.build_runs` — the image and the command of a container
* `Config.declares_program` — a custom mechanism that is accepted has an image and a command
* `Config.runs_declared_iff` — when a custom mechanism runs what it declares
-/

namespace NodeFencing

variable {index : Nat} {target : String} {operation : Operation} {settings : BuildSettings}
  {part : PodPart} {m : Mechanism}

/-- The image of a custom mechanism that names none: the one that is set for its driver, or else the
one for all others. -/
def BuildSettings.customImage (s : BuildSettings) : String :=
  (s.driverImages.get? "custom").getD s.operatorImage

/-- An image that is named comes first, and an empty name counts as none. -/
theorem BuildSettings.imageFor_custom {image : String} (custom : m.driver = .custom)
    (declared : m.image = some image) :
    settings.imageFor m = if image = "" then settings.customImage else image := by
  unfold imageFor customImage
  rw [custom, declared]
  by_cases hempty : image = ""
  · rw [if_pos hempty, hempty]
    show ((settings.driverImages.get? "custom").orElse fun _ => none).getD _ = _
    cases settings.driverImages.get? "custom" <;> rfl
  · have kept : (some image).filter (· != "") = some image := by simp [hempty]
    rw [if_neg hempty, kept]
    rfl

namespace Mechanism

/-- **The image and the command of a container.**  What is passed on the command line comes behind
the command of the mechanism. -/
theorem build_runs (h : m.build index target operation settings = .ok part) :
    part.container.image = some (settings.imageFor m) ∧
      m.baseCommand <+: part.container.command := by
  obtain ⟨format, parameters, -, -, rfl⟩ := exists_partFor h
  refine ⟨rfl, ?_⟩
  show m.baseCommand <+: if m.baseCommand = [] then [] else m.baseCommand ++ _
  by_cases hempty : m.baseCommand = []
  · rw [if_pos hempty]
    exact List.prefix_nil.mpr hempty
  · rw [if_neg hempty]
    exact List.prefix_append _ _

end Mechanism

namespace Config

variable {source text : String} {c : Config} {method : Method}

/-- A custom mechanism that is accepted has an image and a command. -/
theorem declares_program (h : ofYaml source text = .ok c) (hmethod : method ∈ c.methods)
    (hm : m ∈ method.mechanisms) (custom : m.driver = .custom) :
    (∃ image, m.image = some image) ∧ ∃ command, m.command = some command := by
  have usable := fault?_eq_none_iff.mp (fault?_of_ofYaml h)
  exact ((usable.methods method hmethod).mechanisms m hm).program custom

/-- **When a custom mechanism runs what it declares**, for all configurations that are accepted, and
all positions, nodes, operations and settings for which there is a container.  The container runs
the command of the mechanism, with what is passed on the command line behind it.  It runs the image
of the mechanism unless the name of this is empty; then it runs the image of custom mechanisms that
name none. -/
theorem runs_declared_iff (h : ofYaml source text = .ok c) (hmethod : method ∈ c.methods)
    (hm : m ∈ method.mechanisms) (custom : m.driver = .custom)
    (hbuild : m.build index target operation settings = .ok part) :
    ∃ image command, m.image = some image ∧ m.command = some command ∧
      command <+: part.container.command ∧
      (part.container.image = some image ↔ image = "" → settings.customImage = "") ∧
      (image = "" → part.container.image = some settings.customImage) := by
  obtain ⟨⟨image, himage⟩, command, hcommand⟩ := declares_program h hmethod hm custom
  obtain ⟨runs, begins⟩ := Mechanism.build_runs hbuild
  rw [BuildSettings.imageFor_custom custom himage] at runs
  rw [Mechanism.baseCommand, hcommand, Option.getD_some] at begins
  refine ⟨image, command, himage, hcommand, begins, ?_, fun hempty => ?_⟩
  · rw [runs, Option.some.injEq]
    by_cases hempty : image = ""
    · rw [if_pos hempty, hempty]
      simp
    · rw [if_neg hempty]
      simp [hempty]
  · rw [runs, if_pos hempty]

/-- A custom mechanism with an image of its own. -/
def agentSource : String :=
  "methods:\n- name: power\n  mechanisms:\n  - driver: echo\n  - driver: custom\n" ++
  "    image: registry/agent:7\n    command: [/bin/agent, --off]\n"

@[inherit_doc agentSource]
def agentMechanism : Mechanism where
  driver := .custom
  image := some "registry/agent:7"
  command := some ["/bin/agent", "--off"]

/-- It runs this image, although the settings have another one for custom mechanisms. -/
theorem runs_declared_iff_agent :
    ∃ c method part, ofYaml "rack-1" agentSource = .ok c ∧ method ∈ c.methods ∧
      agentMechanism ∈ method.mechanisms ∧ agentMechanism.driver = .custom ∧
      agentMechanism.build 1 "node-1" .off { driverImages := [("custom", "other")] } = .ok part ∧
      part.container.image = some "registry/agent:7" ∧
      ["/bin/agent", "--off"] <+: part.container.command := by
  have reads : ofYaml "rack-1" agentSource =
      .ok ⟨"rack-1", [], [{ name := "power", mechanisms := [{}, agentMechanism] }]⟩ := by
    decide +kernel
  have second : agentMechanism ∈ [{}, agentMechanism] :=
    List.mem_cons_of_mem _ (List.mem_singleton_self _)
  have builds : agentMechanism.build 1 "node-1" .off
      { driverImages := [("custom", "other")] } = .ok _ := rfl
  obtain ⟨_, _, ⟨⟩, ⟨⟩, begins, same, -⟩ :=
    runs_declared_iff reads (List.mem_singleton_self _) second rfl builds
  exact ⟨_, _, _, reads, List.mem_singleton_self _, second, rfl, builds, same.mpr nofun, begins⟩

/-- A custom mechanism whose image has the empty name. -/
def namelessSource : String :=
  "methods:\n- name: power\n  mechanisms:\n  - driver: custom\n    image: ''\n" ++
  "    command: [/bin/agent]\n"

@[inherit_doc namelessSource]
def namelessMechanism : Mechanism where
  driver := .custom
  image := some ""
  command := some ["/bin/agent"]

/-- It is accepted, and runs the image for mechanisms of which no image is known. -/
theorem nameless_not_declared :
    ∃ c method part, ofYaml "rack-1" namelessSource = .ok c ∧ method ∈ c.methods ∧
      namelessMechanism ∈ method.mechanisms ∧ namelessMechanism.driver = .custom ∧
      namelessMechanism.build 0 "node-1" .off { operatorImage := "operator:dev" } = .ok part ∧
      part.container.image ≠ namelessMechanism.image := by
  refine ⟨⟨"rack-1", [], [{ name := "power", mechanisms := [namelessMechanism] }]⟩, _, _, ?_,
    List.mem_singleton_self _, List.mem_singleton_self _, rfl, rfl, by decide⟩
  decide +kernel

end Config

end NodeFencing
