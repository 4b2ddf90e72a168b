import Mathlib.Data.List.Nodup
import NodeFencing.Proofs.Method.Build

/-!
# Where secrets are mounted

For each of its secrets a container has a variable that tells where the secret is mounted.
The variable is always there.  Volumes, however, are told apart by their names, in which
the name of a secret appears in a changed form.  Of several secrets with the same form only
the first has a volume, and for the others nothing is mounted at the place that the
variable names.

## Main Definitions

* `mountedSecrets` — the secrets that have a volume
* `PodPart.Sees` — a container sees a secret at a path
* `PodPart.Delivers` — a container sees a secret where a variable says so

## Main statements

* `Mechanism.secretParts_eq` — what the secrets of a mechanism add to its container
* `Mechanism.build_ok` — the parts of a container that come from its mechanism
* `Mechanism.delivers_secrets_iff` — all secrets are mounted exactly where their volumes have names
  of their own
-/

namespace NodeFencing

variable {settings : BuildSettings} {index : Nat} {secrets : List String} {secret : String}

/-! ### The secrets that have a volume -/

/-- The variable that tells where a secret is mounted. -/
def secretVariable (settings : BuildSettings) (entry : String × String) : EnvVar :=
  ⟨"SECRETPATH_" ++ entry.1, some (settings.secretPath entry.2)⟩

/-- The volume that holds a secret for the mechanism at a position. -/
def secretVolume (index : Nat) (secret : String) : Volume where
  name := secretVolumeName index secret
  source := .secret (some secret)

/-- Where this volume is mounted. -/
def secretMount (settings : BuildSettings) (index : Nat) (secret : String) : Mount where
  name := secretVolumeName index secret
  path := settings.secretPath secret
  readOnly := some true

/-- One more secret has a volume, unless another one has the volume of this name. -/
def keepSecret (index : Nat) (kept : List String) (secret : String) : List String :=
  if kept.any (secretVolumeName index · == secretVolumeName index secret) then kept
  else kept ++ [secret]

/-- Of some secrets those that have a volume. -/
def mountedSecrets (index : Nat) (secrets : List String) : List String :=
  secrets.foldl (keepSecret index) []

/-- Every name of a volume is kept, and no other one is new. -/
theorem mem_map_keepSecret {kept : List String} {name : String} :
    name ∈ (keepSecret index kept secret).map (secretVolumeName index) ↔
      name ∈ kept.map (secretVolumeName index) ∨ name = secretVolumeName index secret := by
  unfold keepSecret
  split
  · next h =>
      obtain ⟨s, hs, hname⟩ := List.any_eq_true.mp h
      have known : secretVolumeName index secret ∈ kept.map (secretVolumeName index) :=
        List.mem_map.mpr ⟨s, hs, by simpa using hname⟩
      refine ⟨.inl, fun hor => ?_⟩
      rcases hor with hold | rfl
      · exact hold
      · exact known
  · simp

theorem nodup_keepSecret {kept : List String} (h : (kept.map (secretVolumeName index)).Nodup) :
    ((keepSecret index kept secret).map (secretVolumeName index)).Nodup := by
  unfold keepSecret
  split
  · exact h
  · next hnew =>
      rw [List.map_append]
      refine h.append (List.nodup_singleton _) fun name hold hname => hnew ?_
      obtain ⟨s, hs, rfl⟩ := List.mem_map.mp hold
      exact List.any_eq_true.mpr ⟨s, hs, by simpa using List.mem_singleton.mp hname⟩

theorem mem_of_mem_foldl_keepSecret {kept : List String}
    (h : secret ∈ secrets.foldl (keepSecret index) kept) : secret ∈ kept ∨ secret ∈ secrets := by
  induction secrets generalizing kept with
  | nil => exact .inl h
  | cons head rest ih =>
      rcases ih h with hkept | hrest
      · unfold keepSecret at hkept
        split at hkept
        · exact .inl hkept
        · rcases List.mem_append.mp hkept with hold | hnew
          · exact .inl hold
          · exact .inr (List.mem_cons.mpr (.inl (List.mem_singleton.mp hnew)))
      · exact .inr (List.mem_cons_of_mem _ hrest)

theorem mem_map_foldl_keepSecret {kept : List String} {name : String} :
    name ∈ (secrets.foldl (keepSecret index) kept).map (secretVolumeName index) ↔
      name ∈ kept.map (secretVolumeName index) ∨ name ∈ secrets.map (secretVolumeName index) := by
  induction secrets generalizing kept with
  | nil => simp
  | cons head rest ih =>
      rw [List.foldl_cons, ih, mem_map_keepSecret, List.map_cons, List.mem_cons, or_assoc]

theorem nodup_foldl_keepSecret {kept : List String}
    (h : (kept.map (secretVolumeName index)).Nodup) :
    ((secrets.foldl (keepSecret index) kept).map (secretVolumeName index)).Nodup := by
  induction secrets generalizing kept with
  | nil => exact h
  | cons head rest ih => exact ih (nodup_keepSecret h)

/-- Secrets that have a volume are some of the secrets. -/
theorem mountedSecrets_subset : mountedSecrets index secrets ⊆ secrets :=
  fun _ h => (mem_of_mem_foldl_keepSecret h).resolve_left List.not_mem_nil

/-- A secret has a volume, or another secret has the volume of this name. -/
theorem exists_mountedSecrets (h : secret ∈ secrets) :
    ∃ s ∈ mountedSecrets index secrets,
      secretVolumeName index s = secretVolumeName index secret :=
  List.mem_map.mp (mem_map_foldl_keepSecret.mpr (.inr (List.mem_map_of_mem h)))

/-- **Volumes of secrets differ in their names.** -/
theorem nodup_mountedSecrets :
    ((mountedSecrets index secrets).map (secretVolumeName index)).Nodup :=
  nodup_foldl_keepSecret List.nodup_nil

/-- All secrets have a volume exactly where different secrets have volumes of different names. -/
theorem subset_mountedSecrets_iff :
    secrets ⊆ mountedSecrets index secrets ↔
      ∀ s ∈ secrets, ∀ s' ∈ secrets,
        secretVolumeName index s = secretVolumeName index s' → s = s' := by
  constructor
  · intro h s hs s' hs' hname
    exact List.inj_on_of_nodup_map nodup_mountedSecrets (h hs) (h hs') hname
  · intro h s hs
    obtain ⟨s', hs', hname⟩ : ∃ s' ∈ mountedSecrets index secrets,
        secretVolumeName index s' = secretVolumeName index s := exists_mountedSecrets hs
    obtain rfl := h s' (mountedSecrets_subset hs') s hs hname
    exact hs'

/-! ### The parts of a container -/

/-- What some secrets add to a container when the given ones have a volume. -/
def SecretParts.holding (settings : BuildSettings) (index : Nat)
    (entries : List (String × String)) (kept : List String) : SecretParts where
  env := entries.map (secretVariable settings)
  volumes := kept.map (secretVolume index)
  mounts := kept.map (secretMount settings index)

theorem SecretParts.add_holding (entries : List (String × String)) (kept : List String)
    (entry : String × String) :
    (holding settings index entries kept).add settings index entry =
      holding settings index (entries ++ [entry]) (keepSecret index kept entry.2) := by
  have same : (kept.map (secretVolume index)).any (·.name == secretVolumeName index entry.2) =
      kept.any (secretVolumeName index · == secretVolumeName index entry.2) := by
    rw [List.any_map]
    rfl
  unfold add keepSecret
  simp only [holding, same]
  split
  · simp [secretVariable]
  · simp [secretVariable, secretVolume, secretMount]

theorem SecretParts.foldl_add_holding (entries more : List (String × String))
    (kept : List String) :
    more.foldl (add settings index) (holding settings index entries kept) =
      holding settings index (entries ++ more)
        ((more.map (·.2)).foldl (keepSecret index) kept) := by
  induction more generalizing entries kept with
  | nil => simp
  | cons entry rest ih => simp [add_holding, ih]

/-- **What the secrets of a mechanism add to its container**: a variable for each, and a volume with
its mount for those that have one. -/
theorem Mechanism.secretParts_eq (m : Mechanism) (index : Nat) (settings : BuildSettings) :
    m.secretParts index settings =
      .holding settings index m.secrets (mountedSecrets index (m.secrets.map (·.2))) :=
  SecretParts.foldl_add_holding [] m.secrets []

/-- The parts of a container that come from its mechanism. -/
theorem Mechanism.build_ok {m : Mechanism} {target : String} {operation : Operation}
    {part : PodPart} (h : m.build index target operation settings = .ok part) :
    ∃ format parameters, ArgumentFormat.named m.argumentFormat = .ok format ∧
      m.parameters target = .ok parameters ∧
      part.volumes = (m.secretParts index settings).volumes ∧
      part.container.mounts = (m.secretParts index settings).mounts ∧
      part.container.env = m.variables format operation ++ (m.secretParts index settings).env ++
        match format with
        | .cli => []
        | .env => environment parameters m.passTargetAs target := by
  obtain ⟨format, parameters, hformat, hparameters, rfl⟩ := exists_partFor h
  exact ⟨format, parameters, hformat, hparameters, rfl, rfl, rfl⟩

/-! ### What a container sees -/

theorem BuildSettings.secretPath_inj {secret' : String}
    (h : settings.secretPath secret = settings.secretPath secret') : secret = secret' :=
  (String.append_right_inj _).mp h

namespace PodPart

/-- A container sees a secret at a path: a volume that holds it is mounted there, and only to be
read. -/
def Sees (p : PodPart) (path secret : String) : Prop :=
  ∃ mount ∈ p.container.mounts, mount.path = path ∧ mount.readOnly = some true ∧
    ∃ v ∈ p.volumes, v.name = mount.name ∧ v.source = .secret (some secret)

/-- A container has a variable of some name that holds a path, and sees a secret there. -/
structure Delivers (p : PodPart) (name path secret : String) : Prop where
  told : ⟨name, some path⟩ ∈ p.container.env
  seen : p.Sees path secret

end PodPart

namespace Mechanism

variable {m : Mechanism} {target : String} {operation : Operation} {part : PodPart}

/-- A variable tells of each secret where it is mounted. -/
theorem variable_mem_env (h : m.build index target operation settings = .ok part)
    {entry : String × String} (hentry : entry ∈ m.secrets) :
    secretVariable settings entry ∈ part.container.env := by
  obtain ⟨format, parameters, -, -, -, -, henv⟩ := build_ok h
  rw [henv, secretParts_eq]
  refine List.mem_append_left _ (List.mem_append_right _ ?_)
  exact List.mem_map_of_mem hentry

/-- A container sees a secret where it should be mounted exactly if the secret has a volume. -/
theorem sees_iff (h : m.build index target operation settings = .ok part) :
    part.Sees (settings.secretPath secret) secret ↔
      secret ∈ mountedSecrets index (m.secrets.map (·.2)) := by
  obtain ⟨format, parameters, -, -, hvolumes, hmounts, -⟩ := build_ok h
  rw [secretParts_eq] at hvolumes hmounts
  unfold PodPart.Sees
  rw [hvolumes, hmounts]
  constructor
  · rintro ⟨mount, hmount, hpath, -⟩
    -- The path tells the secret for which it is made.
    obtain ⟨s, hs, rfl⟩ := List.mem_map.mp hmount
    exact BuildSettings.secretPath_inj hpath ▸ hs
  · intro hmem
    exact ⟨secretMount settings index secret, List.mem_map_of_mem hmem, rfl, rfl,
      secretVolume index secret, List.mem_map_of_mem hmem, rfl, rfl⟩

/-- **Secrets are mounted where their variables say**, all of them, exactly where the volumes of
different secrets have different names. -/
theorem delivers_secrets_iff (h : m.build index target operation settings = .ok part) :
    (∀ entry ∈ m.secrets, part.Delivers ("SECRETPATH_" ++ entry.1)
        (settings.secretPath entry.2) entry.2) ↔
      ∀ entry ∈ m.secrets, ∀ entry' ∈ m.secrets,
        secretVolumeName index entry.2 = secretVolumeName index entry'.2 →
          entry.2 = entry'.2 := by
  constructor
  · intro hall
    have hsub : m.secrets.map (·.2) ⊆ mountedSecrets index (m.secrets.map (·.2)) := by
      intro s hs
      obtain ⟨entry, hentry, rfl⟩ := List.mem_map.mp hs
      exact (sees_iff h).mp (hall entry hentry).seen
    intro entry hentry entry' hentry' hname
    exact subset_mountedSecrets_iff.mp hsub _ (List.mem_map_of_mem hentry) _
      (List.mem_map_of_mem hentry') hname
  · intro hdiffer entry hentry
    have hsub : m.secrets.map (·.2) ⊆ mountedSecrets index (m.secrets.map (·.2)) := by
      refine subset_mountedSecrets_iff.mpr ?_
      simpa only [List.forall_mem_map] using hdiffer
    exact ⟨variable_mem_env h hentry, (sees_iff h).mpr (hsub (List.mem_map_of_mem hentry))⟩

/-- Two variables for one secret, and one for another. -/
def sharedSecret : Mechanism where
  secrets := [("user", "bmc"), ("password", "bmc"), ("key", "bmc-key")]

theorem delivers_secrets_iff_shared :
    ∃ part, sharedSecret.build 2 "node-1" .off {} = .ok part ∧
      ∀ entry ∈ sharedSecret.secrets, part.Delivers ("SECRETPATH_" ++ entry.1)
        (BuildSettings.secretPath {} entry.2) entry.2 :=
  ⟨_, rfl, (delivers_secrets_iff rfl).mpr (by decide)⟩

/-- Two secrets whose names have the same form. -/
def alikeSecrets : Mechanism where
  secrets := [("user", "bmc.rack1"), ("password", "bmc-rack1")]

/-- The second one is not mounted anywhere. -/
theorem alike_not_delivered :
    ∃ part, alikeSecrets.build 0 "node-1" .off {} = .ok part ∧
      ¬ ∀ entry ∈ alikeSecrets.secrets, part.Delivers ("SECRETPATH_" ++ entry.1)
        (BuildSettings.secretPath {} entry.2) entry.2 := by
  refine ⟨_, rfl, fun h => ?_⟩
  obtain ⟨-, mount, hmount, hpath, -⟩ := h ("password", "bmc-rack1") (by decide)
  obtain rfl := List.mem_singleton.mp hmount
  exact absurd hpath (by decide)

end Mechanism

end NodeFencing
