import Mathlib.Data.List.DropRight
import NodeFencing.Proofs.Registry
import NodeFencing.Source.Remote

/-!
# The registry follows its sources

Config maps are taken over in two ways: all at once, by loading them, or one after another,
as a watch reports them.  A watch that lists the same config maps leaves the same registry
as loading them, whatever the registry has held before, and whatever the watch was at.

In between no configuration is lost.  A name goes away only when its config map is reported
as deleted, or when a list is complete in which it does not occur.  A list that breaks off
and begins anew counts from its new beginning, and takes nothing away until then.  So a
source that is not usable, that holds nothing, or that has not been listed again yet, keeps
its last good configuration.

## Main Definitions

* `relisted` — the names that were listed since the last list began
* `Change.Withdraws`, `Change.brings?` — what a report means for a name

## Main statements

* `Follower.follow_list` — watching a list is loading it
* `Follower.get?_follow_concat` — what one report more changes
* `Follower.get?_follow_append` — what reports change that do not withdraw a name
* `Follower.follows_sources` — watching agrees with loading, and keeps what is not withdrawn
-/

namespace NodeFencing

/-- The configuration of a config map has its name. -/
theorem ConfigMap.name_of_config {source : ConfigMap} {key : String} {c : Config}
    (h : source.config key = .ok c) : c.name = source.metadata.nameOrBase := by
  unfold config at h
  dsimp only at h
  split at h
  · exact Config.name_of_ofYaml h
  · cases h

/-- A config map that goes by its own name, and not by what a name is to be generated from. -/
def ConfigMap.Named (source : ConfigMap) : Prop :=
  source.metadata.nameOrBase = source.metadata.name.getD ""

theorem ConfigMap.named_of_name {source : ConfigMap} {name : String}
    (h : source.metadata.name = some name) : source.Named := by
  unfold Named Meta.nameOrBase
  rw [h]
  rfl

/-! ### What a report means -/

namespace Change

/-- Whether a report begins a list. -/
def isListing : Change ConfigMap → Bool
  | listing => true
  | listed _ | settled | applied _ | deleted _ => false

/-- The name that a report lists. -/
def listed? : Change ConfigMap → Option String
  | listed source => some source.metadata.nameOrBase
  | listing | settled | applied _ | deleted _ => none

/-- The configuration that a report brings under a name. -/
def brings? (key : String) (change : Change ConfigMap) (name : String) : Option Config :=
  match change with
  | listed source | applied source =>
    if source.metadata.nameOrBase = name then (source.config key).toOption else none
  | listing | settled | deleted _ => none

end Change

/-- The names that were listed since the last list began. -/
def relisted (changes : List (Change ConfigMap)) : List String :=
  (changes.rtakeWhile fun change => !change.isListing).filterMap Change.listed?

/-- A report withdraws a name behind others: its config map is deleted, or a list is complete in
which it does not occur. -/
def Change.Withdraws (change : Change ConfigMap) (before : List (Change ConfigMap))
    (name : String) : Prop :=
  match change with
  | deleted source => source.metadata.nameOrBase = name
  | settled => name ∉ relisted before
  | listing | listed _ | applied _ => False

instance (change : Change ConfigMap) (before : List (Change ConfigMap)) (name : String) :
    Decidable (change.Withdraws before name) :=
  match change with
  | .deleted source => inferInstanceAs (Decidable (source.metadata.nameOrBase = name))
  | .settled => inferInstanceAs (Decidable (name ∉ relisted before))
  | .listing | .listed _ | .applied _ => inferInstanceAs (Decidable False)

theorem relisted_concat (changes : List (Change ConfigMap)) (change : Change ConfigMap) :
    relisted (changes ++ [change]) =
      if change.isListing then [] else relisted changes ++ change.listed?.toList := by
  unfold relisted
  rw [List.rtakeWhile_concat]
  cases change with
  | listing => rfl
  | listed source => simp [Change.isListing, Change.listed?]
  | settled => simp [Change.isListing, Change.listed?]
  | applied source => simp [Change.isListing, Change.listed?]
  | deleted source => simp [Change.isListing, Change.listed?]

/-! ### Taking over a config map -/

/-- A config map changes what stands under its own name only, and only if it is usable. -/
theorem Registry.get?_take (r : Registry) (source : ConfigMap) (key name : String) :
    (r.take source key).2.get? name =
      (if source.metadata.nameOrBase = name then (source.config key).toOption else none).or
        (r.get? name) := by
  unfold take
  cases h : source.config key with
  | error e => simp [Except.toOption]
  | ok c =>
      dsimp only
      rw [get?_insert, ConfigMap.name_of_config h]
      by_cases hname : name = source.metadata.nameOrBase
      · simp [hname, Except.toOption]
      · simp [hname, Ne.symm hname]

namespace Follower

variable (key : String)

/-! ### Lists -/

/-- Reports of a list take over its config maps in order. -/
theorem follow_listed (f : Follower) (sources : List ConfigMap) :
    f.follow key (sources.map .listed) =
      { registry := sources.foldl (fun r source => (r.take source key).2) f.registry
        listed := f.listed ++ sources.map fun source => source.metadata.nameOrBase } := by
  unfold follow
  induction sources generalizing f with
  | nil => simp
  | cons source rest ih =>
      rw [List.map_cons, List.foldl_cons, ih]
      simp [step]

/-- **Watching a list is loading it**, if its config maps go by their names. -/
theorem follow_list (f : Follower) {sources : List ConfigMap}
    (named : ∀ s ∈ sources, s.Named) :
    (f.follow key (.listing :: sources.map .listed ++ [.settled])).registry =
      f.registry.load sources key := by
  have names : (sources.map fun source => source.metadata.nameOrBase) =
      sources.map fun source => source.metadata.name.getD "" :=
    List.map_congr_left named
  have listing : (f.follow key (.listing :: sources.map .listed)) =
      ({ f with listed := [] } : Follower).follow key (sources.map .listed) := rfl
  unfold Registry.load
  rw [follow, List.foldl_concat, ← follow, listing, follow_listed, names]
  simp [step]

/-! ### Reports one after another -/

section Step

variable (r : Registry) (before : List (Change ConfigMap)) (change : Change ConfigMap)

theorem follow_concat (f : Follower) :
    f.follow key (before ++ [change]) = (f.follow key before).step key change :=
  List.foldl_concat ..

/-- A follower knows what was listed since the last list began. -/
theorem listed_follow : (follow { registry := r } key before).listed = relisted before := by
  induction before using List.reverseRecOn with
  | nil => rfl
  | append_singleton before change ih =>
      rw [follow_concat, relisted_concat, ← ih]
      cases change with
      | listing => rfl
      | listed source => rfl
      | settled => simp [step, Change.isListing, Change.listed?]
      | applied source => simp [step, Change.isListing, Change.listed?]
      | deleted source => simp [step, Change.isListing, Change.listed?]

/-- **One report more**: it withdraws a name, or brings a configuration, or leaves what there
was. -/
theorem get?_follow_concat (name : String) :
    (follow { registry := r } key (before ++ [change])).registry.get? name =
      if change.Withdraws before name then none
      else (change.brings? key name).or
        ((follow { registry := r } key before).registry.get? name) := by
  rw [follow_concat]
  cases change with
  | listing => rfl
  | listed source => exact Registry.get?_take ..
  | settled =>
      rw [step, Registry.get?_resync, listed_follow]
      by_cases hname : name ∈ relisted before
      · simp [Change.Withdraws, Change.brings?, hname]
      · simp [Change.Withdraws, hname]
  | applied source => exact Registry.get?_take ..
  | deleted source =>
      rw [step, Registry.get?_remove]
      by_cases hname : name = source.metadata.nameOrBase
      · simp [Change.Withdraws, hname]
      · simp [Change.Withdraws, Change.brings?, hname, Ne.symm hname]

/-- A name goes away with the reports that withdraw it, and with no others. -/
theorem notMem_names_iff {name : String}
    (h : name ∈ (follow { registry := r } key before).registry.names) :
    name ∉ (follow { registry := r } key (before ++ [change])).registry.names ↔
      change.Withdraws before name := by
  rw [← Registry.get?_isSome_iff] at h ⊢
  rw [get?_follow_concat]
  split
  · next hwithdraws => simp [hwithdraws]
  · next hkept => simp [hkept, Option.isSome_or, h]

end Step

/-- **Reports that do not withdraw a name** leave the last good configuration under it. -/
theorem get?_follow_append (r : Registry) (before later : List (Change ConfigMap)) {name : String}
    (kept : ∀ l change l', later = l ++ change :: l' → ¬ change.Withdraws (before ++ l) name) :
    (follow { registry := r } key (before ++ later)).registry.get? name =
      (later.filterMap (·.brings? key name)).getLast?.or
        ((follow { registry := r } key before).registry.get? name) := by
  induction later using List.reverseRecOn with
  | nil => simp
  | append_singleton later change ih =>
      have last : ¬ change.Withdraws (before ++ later) name := kept later change [] rfl
      have earlier := ih fun l other l' hl => kept l other (l' ++ [change]) (by simp [hl])
      rw [← List.append_assoc, get?_follow_concat, if_neg last, earlier, List.filterMap_append,
        List.getLast?_append, ← Option.or_assoc]
      cases hbrings : change.brings? key name with
      | none => simp [hbrings]
      | some c => simp [hbrings]

/-- **Watching agrees with loading, and keeps what is not withdrawn.**  Reports of a list leave the
registry that loading the list leaves, in names, order and configurations, whatever came before.
And for whatever reports come, from whatever registry: a name that is known goes away with a report
just if this is that its config map is deleted, or that a list is complete in which it does not
occur since it began; and as long as there is no such report, the name has the last configuration
that it was given. -/
theorem follows_sources {sources : List ConfigMap}
    (named : ∀ s ∈ sources, s.Named) :
    (∀ f : Follower, (f.follow key (.listing :: sources.map .listed ++ [.settled])).registry =
      f.registry.load sources key) ∧
    (∀ (r : Registry) (before : List (Change ConfigMap)) (change : Change ConfigMap),
      ∀ name ∈ (follow { registry := r } key before).registry.names,
        (name ∉ (follow { registry := r } key (before ++ [change])).registry.names ↔
          change.Withdraws before name)) ∧
    ∀ (r : Registry) (before later : List (Change ConfigMap)) (name : String),
      (∀ l change l', later = l ++ change :: l' → ¬ change.Withdraws (before ++ l) name) →
        (follow { registry := r } key (before ++ later)).registry.get? name =
          (later.filterMap (·.brings? key name)).getLast?.or
            ((follow { registry := r } key before).registry.get? name) := by
  refine ⟨fun f => f.follow_list key named, fun r before change name h => ?_,
    fun r before later name kept => ?_⟩
  · exact notMem_names_iff key r before change h
  · exact get?_follow_append key r before later kept

/-- A config map that holds a text under the key in use. -/
def sourceOf (name text : String) : ConfigMap where
  metadata := { name := some name }
  data := [("config", text)]

/-- The text of a configuration. -/
def usableText : String :=
  "methods:\n- name: power\n  mechanisms:\n  - driver: echo\n"

/-- Three config maps: a usable one, one that breaks off, and an empty one. -/
def mixedSources : List ConfigMap :=
  [sourceOf "racks" usableText, sourceOf "blades" "methods: [",
    { metadata := { name := some "chassis" } }]

/-- A registry in which the second of these config maps was usable once, in the middle of a list
that has another name. -/
def interrupted : Follower :=
  follow {} "config" [.applied (sourceOf "cabinets" usableText),
    .applied (sourceOf "blades" usableText), .listing, .listed (sourceOf "cabinets" usableText)]

/-- Reports of a list that breaks off behind a name, and begins anew. -/
def cutShort : List (Change ConfigMap) :=
  [.listing, .listed (sourceOf "racks" usableText), .listing]

/-- Listed anew, these config maps leave what loading them leaves: the one that breaks off keeps its
last good configuration, and the name that they do not have goes away.  A name of a list that breaks
off stays until a list is complete without it, and a text that breaks off takes nothing away. -/
theorem follows_sources_interrupted :
    (∀ s ∈ mixedSources, s.Named) ∧
      (interrupted.follow "config" (.listing :: mixedSources.map .listed ++ [.settled])).registry =
        interrupted.registry.load mixedSources "config" ∧
      (interrupted.registry.load mixedSources "config").names = ["blades", "racks"] ∧
      "racks" ∈ (follow {} "config" cutShort).registry.names ∧
      "racks" ∉ (follow {} "config" (cutShort ++ [.settled])).registry.names ∧
      (follow {} "config" (cutShort ++ [.listed (sourceOf "racks" "methods: [")])).registry.get?
        "racks" = (follow {} "config" cutShort).registry.get? "racks" := by
  have named : ∀ s ∈ mixedSources, s.Named := by
    intro s hs
    simp only [mixedSources, List.mem_cons, List.not_mem_nil, or_false] at hs
    rcases hs with rfl | rfl | rfl
    · exact ConfigMap.named_of_name rfl
    · exact ConfigMap.named_of_name rfl
    · exact ConfigMap.named_of_name rfl
  have known : "racks" ∈ (follow {} "config" cutShort).registry.names := by decide +kernel
  have unusable :
      (Change.listed (sourceOf "racks" "methods: [")).brings? "config" "racks" = none := by
    decide +kernel
  obtain ⟨lists, withdraws, keeps⟩ := follows_sources "config" named
  refine ⟨named, lists interrupted, by decide +kernel, known, ?_, ?_⟩
  · exact (withdraws {} cutShort .settled "racks" known).mpr (by decide)
  · have kept (l : List (Change ConfigMap)) (change : Change ConfigMap)
        (l' : List (Change ConfigMap))
        (h : [.listed (sourceOf "racks" "methods: [")] = l ++ change :: l') :
        ¬ change.Withdraws (cutShort ++ l) "racks" := by
      have only : change ∈ [Change.listed (sourceOf "racks" "methods: [")] := by simp [h]
      rw [List.mem_singleton.mp only]
      exact id
    rw [keeps {} cutShort _ "racks" kept, List.filterMap_cons, unusable]
    rfl

end Follower

end NodeFencing
