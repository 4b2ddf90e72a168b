import NodeFencing.Proofs.Method.Build
import NodeFencing.Proofs.Method.Secret
import NodeFencing.Proofs.Naming

/-!
# How a pod is put together

The parts of a pod find each other by their names: a container mounts a volume by the name of
the volume.  Both names hold the position of the mechanism that container and volume come
from, and of several secrets of a mechanism that would have volumes of one name only the first
has one.  So names differ in the whole pod as long as none is cut, and each volume is mounted
once, by the container that it was made for.

## Main Definitions

* `secretTitle` — the name of a volume before it is cut
* `Method.VolumesFit` — no volume of a method has a name that is cut
* `PodPart.Wired` — a container mounts the volumes that come with it
* `Method.Contributes` — a volume comes from the mechanism at a position
* `Method.Built` — containers of the mechanisms of a method
* `Method.Wired` — the parts of the pod of a method find each other

## Main statements

* `index_of_numbered` — a name tells the number in it
* `Mechanism.build_wired` — a container mounts the volumes that come with it
* `Method.Built.nodup_volumes` — names of volumes differ in the whole pod
* `Method.buildJob_wired` — the parts of the pod of a method find each other
-/

namespace NodeFencing

variable {settings : BuildSettings} {target : String} {operation : Operation}

/-! ### Numbers in names -/

/-- The digits of a number end where a hyphen stands. -/
theorem takeWhile_digits (n : Nat) (tail : List Char) :
    ((toString n).toList ++ '-' :: tail).takeWhile (· != '-') = (toString n).toList := by
  have digits : ∀ c ∈ (toString n).toList, (c != '-') = true := by
    intro c hc
    rw [Nat.toString_eq_ofList_toDigits, String.toList_ofList] at hc
    have hdigit := Nat.isDigit_of_mem_toDigits (by decide) (by decide) hc
    rw [bne_iff_ne]
    rintro rfl
    exact absurd hdigit (by decide)
  rw [List.takeWhile_append_of_pos digits, List.takeWhile_cons_of_neg (by decide),
    List.append_nil]

/-- **A name tells the number in it**, whatever follows behind the hyphen. -/
theorem index_of_numbered {head tail tail' : String} {i j : Nat}
    (h : head ++ toString i ++ "-" ++ tail = head ++ toString j ++ "-" ++ tail') : i = j := by
  have behind : (toString i).toList ++ '-' :: tail.toList =
      (toString j).toList ++ '-' :: tail'.toList := by
    have chars := congrArg String.toList h
    simp only [String.toList_append, List.append_assoc, List.append_cancel_left_eq] at chars
    exact chars
  have digits := congrArg (List.takeWhile (· != '-')) behind
  rw [takeWhile_digits, takeWhile_digits] at digits
  have values := congrArg (Nat.ofDigitChars 10 · 0) digits
  simpa [Nat.toString_eq_ofList_toDigits] using values

/-! ### Names of volumes -/

/-- The name of the volume of a secret before it is cut. -/
def secretTitle (index : Nat) (secret : String) : String :=
  "secret-" ++ toString index ++ "-" ++ dnsLabel secret

theorem secretVolumeName_of_le {index : Nat} {secret : String}
    (fits : (secretTitle index secret).utf8ByteSize ≤ maxNameSize) :
    secretVolumeName index secret = secretTitle index secret :=
  fitName_of_le fits

/-- No volume of a method has a name that is cut. -/
def Method.VolumesFit (m : Method) : Prop :=
  ∀ (i : Nat) (mechanism : Mechanism), m.mechanisms[i]? = some mechanism →
    ∀ entry ∈ mechanism.secrets, (secretTitle i entry.2).utf8ByteSize ≤ maxNameSize

/-! ### One container -/

/-- A container mounts the volumes that come with it: all of them in their order, which have
different names, at different places and only to be read. -/
structure PodPart.Wired (p : PodPart) : Prop where
  mounted : p.container.mounts.map (·.name) = p.volumes.map (·.name)
  volumes : (p.volumes.map (·.name)).Nodup
  paths : (p.container.mounts.map (·.path)).Nodup
  readOnly : ∀ mount ∈ p.container.mounts, mount.readOnly = some true

namespace Mechanism

variable {m : Mechanism} {index : Nat} {part : PodPart}

/-- **A container mounts the volumes that come with it.** -/
theorem build_wired (h : m.build index target operation settings = .ok part) : part.Wired := by
  obtain ⟨_, _, -, -, hvolumes, hmounts, -⟩ := build_ok h
  rw [secretParts_eq] at hvolumes hmounts
  have names := @nodup_mountedSecrets index (m.secrets.map (·.2))
  constructor
  · rw [hvolumes, hmounts]
    simp [SecretParts.holding, secretVolume, secretMount]
  · rw [hvolumes]
    simpa [SecretParts.holding, secretVolume, Function.comp_def] using names
  · rw [hmounts]
    -- Secrets with volumes of different names are different, and so are their paths.
    have paths : ((mountedSecrets index (m.secrets.map (·.2))).map settings.secretPath).Nodup :=
      names.of_map.map fun _ _ => BuildSettings.secretPath_inj
    simpa [SecretParts.holding, secretMount, Function.comp_def] using paths
  · rw [hmounts]
    intro mount hmount
    obtain ⟨secret, -, rfl⟩ := List.mem_map.mp hmount
    rfl

/-- A volume that comes with a container holds a secret of the mechanism. -/
theorem volume_of_build (h : m.build index target operation settings = .ok part) {v : Volume}
    (hv : v ∈ part.volumes) : ∃ entry ∈ m.secrets, v = secretVolume index entry.2 := by
  obtain ⟨_, _, -, -, hvolumes, -⟩ := build_ok h
  rw [hvolumes, secretParts_eq] at hv
  obtain ⟨secret, hsecret, rfl⟩ := List.mem_map.mp hv
  obtain ⟨entry, hentry, rfl⟩ := List.mem_map.mp (mountedSecrets_subset hsecret)
  exact ⟨entry, hentry, rfl⟩

end Mechanism

/-! ### The whole pod -/

namespace Method

variable {m : Method} {c : Config} {r : Request}

/-- A volume comes from the mechanism at a position of a method. -/
def Contributes (m : Method) (r : Request) (settings : BuildSettings) (i : Nat) (v : Volume) :
    Prop :=
  ∃ mechanism part, m.mechanisms[i]? = some mechanism ∧
    mechanism.build i r.target r.operation settings = .ok part ∧ v ∈ part.volumes

/-- Volumes that come from different mechanisms have different names, if none is cut. -/
theorem Contributes.name_ne (fit : m.VolumesFit) {i j : Nat} (hij : i ≠ j) {v v' : Volume}
    (hv : m.Contributes r settings i v) (hv' : m.Contributes r settings j v') :
    v.name ≠ v'.name := by
  obtain ⟨mechanism, part, hget, hbuild, hmem⟩ := hv
  obtain ⟨mechanism', part', hget', hbuild', hmem'⟩ := hv'
  obtain ⟨entry, hentry, rfl⟩ := Mechanism.volume_of_build hbuild hmem
  obtain ⟨entry', hentry', rfl⟩ := Mechanism.volume_of_build hbuild' hmem'
  intro hname
  simp only [secretVolume, secretVolumeName_of_le (fit i mechanism hget entry hentry),
    secretVolumeName_of_le (fit j mechanism' hget' entry' hentry')] at hname
  exact hij (index_of_numbered hname)

/-- Containers of mechanisms of a method, each at the position of its mechanism. -/
def Built (m : Method) (r : Request) (settings : BuildSettings) (parts : List PodPart) : Prop :=
  ∀ (i : Nat) (part : PodPart), parts[i]? = some part → ∃ mechanism,
    m.mechanisms[i]? = some mechanism ∧
      mechanism.build i r.target r.operation settings = .ok part

/-- The pod of a method is put together from containers of its mechanisms. -/
theorem exists_built {job : Job} (h : m.buildJob c r settings = .ok job) :
    ∃ (pod : PodSpec) (parts : List PodPart), job.spec.bind (·.template.spec) = some pod ∧
      pod.containers = parts.map PodPart.container ∧
      pod.volumes = parts.flatMap PodPart.volumes ∧ m.Built r settings parts := by
  obtain ⟨pod, parts, hpod, hcontainers, hvolumes, hlength, hall⟩ := assembled_of_buildJob h
  refine ⟨pod, parts, hpod, hcontainers, hvolumes, fun i part hpart => ?_⟩
  obtain ⟨hi, rfl⟩ := List.getElem?_eq_some_iff.mp hpart
  have hget := List.getElem?_eq_getElem (hlength ▸ hi)
  obtain ⟨part, hpart', hbuild, -⟩ := hall i _ hget
  obtain ⟨_, rfl⟩ := List.getElem?_eq_some_iff.mp hpart'
  exact ⟨_, hget, hbuild⟩

namespace Built

variable {parts : List PodPart}

theorem wired (h : m.Built r settings parts) {part : PodPart} (hpart : part ∈ parts) :
    part.Wired := by
  obtain ⟨i, hi⟩ := List.mem_iff_getElem?.mp hpart
  obtain ⟨_, -, hbuild⟩ := h i part hi
  exact Mechanism.build_wired hbuild

theorem contributes (h : m.Built r settings parts) {i : Nat} {part : PodPart}
    (hpart : parts[i]? = some part) {v : Volume} (hv : v ∈ part.volumes) :
    m.Contributes r settings i v := by
  obtain ⟨mechanism, hget, hbuild⟩ := h i part hpart
  exact ⟨mechanism, part, hget, hbuild, hv⟩

/-- The names of containers differ, for each holds the position of its mechanism. -/
theorem nodup_containers (h : m.Built r settings parts) :
    (parts.map (·.container.name)).Nodup := by
  refine List.pairwise_map.mpr (List.pairwise_iff_getElem.mpr fun i j hi hj hij heq => ?_)
  obtain ⟨_, -, hbuild⟩ := h i _ (List.getElem?_eq_getElem hi)
  obtain ⟨_, -, hbuild'⟩ := h j _ (List.getElem?_eq_getElem hj)
  rw [Mechanism.build_name hbuild, Mechanism.build_name hbuild'] at heq
  exact Nat.ne_of_lt hij (index_of_numbered heq)

/-- **The names of volumes differ in the whole pod**, if none is cut: those of one mechanism in the
secrets, those of two mechanisms in the position. -/
theorem nodup_volumes (h : m.Built r settings parts) (fit : m.VolumesFit) :
    ((parts.flatMap (·.volumes)).map (·.name)).Nodup := by
  rw [List.map_flatMap]
  refine List.nodup_flatMap.mpr ⟨fun part hpart => (h.wired hpart).volumes, ?_⟩
  refine List.pairwise_iff_getElem.mpr fun i j hi hj hij name hname hname' => ?_
  obtain ⟨v, hv, rfl⟩ := List.mem_map.mp hname
  obtain ⟨v', hv', heq⟩ := List.mem_map.mp hname'
  exact (h.contributes (List.getElem?_eq_getElem hi) hv).name_ne fit (Nat.ne_of_lt hij)
    (h.contributes (List.getElem?_eq_getElem hj) hv') heq.symm

/-- What is mounted in a pod is what there is, in the same order. -/
theorem mounted (h : m.Built r settings parts) :
    ((parts.map (·.container)).flatMap (·.mounts)).map (·.name) =
      (parts.flatMap (·.volumes)).map (·.name) := by
  rw [List.flatMap_map, List.map_flatMap, List.map_flatMap]
  exact List.flatMap_congr fun part hpart => (h.wired hpart).mounted

end Built

/-- The parts of the pod of a method find each other by their names. -/
structure Wired (m : Method) (r : Request) (settings : BuildSettings) (pod : PodSpec) : Prop where
  /-- Containers have different names, and so do volumes. -/
  containers : (pod.containers.map (·.name)).Nodup
  volumes : (pod.volumes.map (·.name)).Nodup
  /-- A mount names exactly one volume, which comes from the mechanism of the container. -/
  mounts : ∀ (i : Nat) (container : Container), pod.containers[i]? = some container →
    ∀ mount ∈ container.mounts, (pod.volumes.map (·.name)).count mount.name = 1 ∧
      ∃ v ∈ pod.volumes, v.name = mount.name ∧ m.Contributes r settings i v
  /-- A volume is mounted exactly once in the whole pod. -/
  mounted : ∀ v ∈ pod.volumes,
    ((pod.containers.flatMap (·.mounts)).map (·.name)).count v.name = 1
  paths : ∀ container ∈ pod.containers, (container.mounts.map (·.path)).Nodup
  readOnly : ∀ container ∈ pod.containers, ∀ mount ∈ container.mounts,
    mount.readOnly = some true

/-- **The parts of the pod of a method find each other**, for all requests, configurations and
settings for which there is a job, if no volume has a name that is cut. -/
theorem buildJob_wired {job : Job} (h : m.buildJob c r settings = .ok job) (fit : m.VolumesFit) :
    ∃ pod, job.spec.bind (·.template.spec) = some pod ∧ m.Wired r settings pod := by
  obtain ⟨pod, parts, hpod, hcontainers, hvolumes, hbuilt⟩ := exists_built h
  have volumesDiffer : (pod.volumes.map (·.name)).Nodup := hvolumes ▸ hbuilt.nodup_volumes fit
  have sameNames : (pod.containers.flatMap (·.mounts)).map (·.name) =
      pod.volumes.map (·.name) := by
    rw [hcontainers, hvolumes, hbuilt.mounted]
  have wired : ∀ container ∈ pod.containers, ∃ part : PodPart,
      part.container = container ∧ part.Wired := by
    rw [hcontainers]
    intro container hcontainer
    obtain ⟨part, hpart, rfl⟩ := List.mem_map.mp hcontainer
    exact ⟨part, rfl, hbuilt.wired hpart⟩
  refine ⟨pod, hpod, ?_, volumesDiffer, ?_, ?_, ?_, ?_⟩
  · rw [hcontainers, List.map_map]
    exact hbuilt.nodup_containers
  · intro i container hget mount hmount
    rw [hcontainers, List.getElem?_map] at hget
    obtain ⟨part, hpart, rfl⟩ := Option.map_eq_some_iff.mp hget
    have hpartMem := List.mem_of_getElem? hpart
    obtain ⟨v, hv, hname⟩ : ∃ v ∈ part.volumes, v.name = mount.name :=
      List.mem_map.mp ((hbuilt.wired hpartMem).mounted ▸ List.mem_map_of_mem hmount)
    have hmem : v ∈ pod.volumes := hvolumes ▸ List.mem_flatMap.mpr ⟨part, hpartMem, hv⟩
    exact ⟨List.count_eq_one_of_mem volumesDiffer (hname ▸ List.mem_map_of_mem hmem), v, hmem,
      hname, hbuilt.contributes hpart hv⟩
  · intro v hv
    rw [sameNames]
    exact List.count_eq_one_of_mem volumesDiffer (List.mem_map_of_mem hv)
  · intro container hcontainer
    obtain ⟨part, rfl, hwired⟩ := wired container hcontainer
    exact hwired.paths
  · intro container hcontainer
    obtain ⟨part, rfl, hwired⟩ := wired container hcontainer
    exact hwired.readOnly

/-- Two mechanisms with one secret.  The first one has it twice, with another one whose name has the
same form. -/
def sharedSecrets : Method where
  name := "power"
  mechanisms := [
    { secrets := [("user", "bmc.rack1"), ("password", "bmc.rack1"), ("key", "bmc-rack1")] },
    { driver := .openstack, secrets := [("token", "bmc-rack1"), ("user", "bmc")] }]

theorem buildJob_wired_sharedSecrets : ∃ job pod,
    sharedSecrets.buildJob {} { target := "node-1" } {} = .ok job ∧
      job.spec.bind (·.template.spec) = some pod ∧ pod.volumes.length = 3 ∧
      sharedSecrets.Wired { target := "node-1" } {} pod := by
  have fit : sharedSecrets.VolumesFit := by
    rintro (_ | _ | i) mechanism hget
    · obtain rfl := Option.some.inj hget
      decide
    · obtain rfl := Option.some.inj hget
      decide
    · cases hget
  obtain ⟨pod, hpod, hwired⟩ := buildJob_wired (c := {}) (r := { target := "node-1" }) rfl fit
  refine ⟨_, pod, rfl, hpod, ?_, hwired⟩
  obtain rfl := Option.some.inj hpod
  decide

end Method

end NodeFencing
