import Mathlib.Data.List.Nodup
import NodeFencing.Proofs.Program.Traffic
import NodeFencing.Reconcile.Memory
import NodeFencing.Reconcile.Pass

/-!
# The store of a request, with its past

The store in memory holds the latest revision of a request and answers in one way.  Here
it also remembers every revision that it ever held, for a copy of each may still be in
use, and it answers in every way in which a store may: a call has its effect, or it fails
without an effect, or it fails although it has had its effect.

A status is written only over the revision that the call names, and every write gives a
revision that was not there before.  That a job exists is a statement about the store,
not a failure: it is answered only if a job of the name is there.

## Main Definitions

* `Ledger` — a store with all revisions of a request
* `Ledger.Effect` — what a call does, with its answer
* `Ledger.Serves` — what a call does when it may also fail
* `Ledger.Tells` — what an answer says about a ledger
* `Ledger.rules` — a ledger on which copies of its request are worked on

## Main statements

* `Ledger.Versioned.pinned` — a write over a revision that was read lands on it or nowhere
* `Ledger.Serves.step`, `Ledger.Serves.status_of_mem` — the three things that a call may do to a
  ledger, and where its statuses then come from
* `Ledger.Serves.tells` — what its answer says about the ledger then
-/

namespace NodeFencing

/-- A store with a request, its jobs, and the surroundings of both. -/
structure Ledger where
  registry : Registry := {}
  /-- The labels of the nodes. -/
  labels : String → StringMap String := fun _ => []
  jobs : List Job := []
  /-- All revisions of the request in the order in which they were stored. -/
  revisions : List Request := []
  /-- Whether the request still exists. -/
  present : Bool := true

/-- An answer by which a job counts as created: it was, or one of its name exists. -/
def RequestCall.saysCreated : Except TaskError Job → Bool
  | .ok _ => true
  | .error e => e.meansExists

/-- A request without a status is open, as a new status is. -/
theorem Request.isComplete_eq (r : Request) : r.isComplete = (r.status.getD {}).complete := by
  unfold isComplete
  cases r.status with
  | none => rfl
  | some s => rfl

/-- A request with a status, as another revision. -/
def Request.written (r : Request) (s : Status) (revision : Option String) : Request :=
  { r with status := some s, metadata := { r.metadata with resourceVersion := revision } }

namespace Ledger

/-- The latest revision of the request, unless it is deleted. -/
def latest? (l : Ledger) : Option Request :=
  if l.present then l.revisions.getLast? else none

/-- Whether a job of a name exists. -/
def Holds (l : Ledger) (name : Option String) : Prop :=
  ∃ j ∈ l.jobs, j.metadata.name = name

/-- Whether nothing was ever stored as a revision. -/
def Fresh (l : Ledger) (revision : Option String) : Prop :=
  revision.isSome ∧ ∀ r ∈ l.revisions, r.metadata.resourceVersion ≠ revision

/-- Store a revision. -/
def add (l : Ledger) (r : Request) : Ledger :=
  { l with revisions := l.revisions ++ [r] }

/-! ### Calls -/

/-- What a call does, with its answer. -/
inductive Effect (l : Ledger) : (c : RequestCall) → c.Answer → Ledger → Prop
  | configs : Effect l .configs l.registry.snapshot l
  | nodeLabels {node} : Effect l (.nodeLabels node) (.ok (l.labels node)) l
  | methodJobs {request method} :
      Effect l (.methodJobs request method) (.ok (l.jobs.filter (·.isFor request method))) l
  | created {job} (free : ¬ l.Holds job.metadata.name) :
      Effect l (.createJob job) (.ok job) { l with jobs := l.jobs ++ [job] }
  | taken {job e} (h : l.Holds job.metadata.name) (he : e.meansExists = true) :
      Effect l (.createJob job) (.error e) l
  | read {name} : Effect l (.getRequest name) (.ok l.latest?) l
  | landed {request revision s r new} (latest : l.latest? = some r)
      (same : revision = none ∨ revision = r.metadata.resourceVersion) (fresh : l.Fresh new) :
      Effect l (.patchStatus request revision s) (.ok ()) (l.add (r.written s new))
  | refused {request revision s r} (latest : l.latest? = some r)
      (other : revision.isSome ∧ revision ≠ r.metadata.resourceVersion) :
      Effect l (.patchStatus request revision s) (.error (.conflict request)) l
  | gone {request revision s} (answer : RequestCall.Answer (.patchStatus request revision s))
      (latest : l.latest? = none) : Effect l (.patchStatus request revision s) answer l

/-- What a call does when it may also fail, before or after its effect.  A failure to create a job
that means that it exists is true. -/
inductive Serves (l : Ledger) (c : RequestCall) : c.Answer → Ledger → Prop
  | effect {a l'} (h : Effect l c a l') : Serves l c a l'
  | failed {e l'} (fallible : c ≠ .configs) (h : l' = l ∨ ∃ a, Effect l c a l')
      (honest : ∀ job, c = .createJob job → e.meansExists = true → l'.Holds job.metadata.name) :
      Serves l c (RequestMemory.failed e c) l'

/-- A ledger on which copies of its request are worked on, whichever revision they are of and
whatever the time is. -/
def rules (runs : Settings → Prop) (changes : Ledger → Ledger → Prop) :
    Rules RequestStore (Except TaskError Outcome) Ledger where
  begins l p := ∃ settings r now, runs settings ∧ r ∈ l.revisions ∧
    p = (reconcile settings r now).run
  answers := Serves
  changes := changes

variable {l l' : Ledger} {c : RequestCall}

theorem mem_of_latest? {r : Request} (h : l.latest? = some r) : r ∈ l.revisions := by
  unfold latest? at h
  split at h
  · exact List.mem_of_getLast? h
  · cases h

/-! ### Versions -/

/-- The revisions can be told apart by their versions. -/
structure Versioned (l : Ledger) : Prop where
  named : ∀ r ∈ l.revisions, r.metadata.resourceVersion.isSome
  distinct : (l.revisions.map (·.metadata.resourceVersion)).Nodup

namespace Versioned

theorem single {r : Request} (h : l.revisions = [r]) (hr : r.metadata.resourceVersion.isSome) :
    l.Versioned := by
  constructor
  · simpa [h] using hr
  · simp [h]

theorem congr (h : l.Versioned) (hl : l'.revisions = l.revisions) : l'.Versioned :=
  ⟨hl ▸ h.named, hl ▸ h.distinct⟩

theorem add (h : l.Versioned) {r : Request} (fresh : l.Fresh r.metadata.resourceVersion) :
    (l.add r).Versioned := by
  constructor
  · intro r' hr'
    rcases List.mem_append.mp hr' with hold | hnew
    · exact h.named r' hold
    · exact List.mem_singleton.mp hnew ▸ fresh.1
  · rw [Ledger.add, List.map_append]
    refine h.distinct.append (List.nodup_singleton _) ?_
    intro version hold hnew
    obtain ⟨r', hr', rfl⟩ := List.mem_map.mp hold
    exact fresh.2 r' hr' (List.mem_singleton.mp hnew)

/-- A write over a revision that was read is a write over that very revision. -/
theorem pinned (h : l.Versioned) {r r' : Request} (latest : l.latest? = some r)
    (hr' : r' ∈ l.revisions) (same : r'.metadata.resourceVersion = none ∨
      r'.metadata.resourceVersion = r.metadata.resourceVersion) : r' = r := by
  rcases same with hnone | hsame
  · simpa [hnone] using h.named r' hr'
  · exact List.inj_on_of_nodup_map h.distinct hr' (mem_of_latest? latest) hsame

end Versioned

/-! ### What a call does to a ledger -/

/-- A call leaves a ledger alone, adds a job of a new name, or writes a status over the latest
revision. -/
inductive Step (l : Ledger) (c : RequestCall) : Ledger → Prop
  | still : Step l c l
  | created {job} (call : c = .createJob job) (free : ¬ l.Holds job.metadata.name) :
      Step l c { l with jobs := l.jobs ++ [job] }
  | written {request revision s r new} (call : c = .patchStatus request revision s)
      (latest : l.latest? = some r) (same : revision = none ∨ revision = r.metadata.resourceVersion)
      (fresh : l.Fresh new) : Step l c (l.add (r.written s new))

theorem Effect.step {a : c.Answer} (h : l.Effect c a l') : l.Step c l' := by
  cases h with
  | created free => exact .created rfl free
  | landed latest same fresh => exact .written rfl latest same fresh
  | _ => exact .still

/-- **A ledger under a call**, which may fail. -/
theorem Serves.step {a : c.Answer} (h : l.Serves c a l') : l.Step c l' := by
  cases h with
  | effect h => exact h.step
  | failed _ h _ =>
      obtain rfl | ⟨a, h⟩ := h
      · exact .still
      · exact h.step

/-- A status that is stored under a call was there before, or is the one that the call writes. -/
theorem Serves.status_of_mem {a : c.Answer} (h : l.Serves c a l') {r : Request}
    (hr : r ∈ l'.revisions) :
    r ∈ l.revisions ∨
      ∃ request revision s r₀ new, c = .patchStatus request revision s ∧ l.latest? = some r₀ ∧
        r = r₀.written s new := by
  cases h.step with
  | still => exact .inl hr
  | created => exact .inl hr
  | written call latest =>
      refine (List.mem_append.mp hr).imp_right fun hnew => ?_
      exact ⟨_, _, _, _, _, call, latest, List.mem_singleton.mp hnew⟩

/-! ### What an answer says about a ledger -/

/-- What an answer says about the ledger at the time when it is given. -/
def Tells (l : Ledger) : (c : RequestCall) → c.Answer → Prop
  | .configs, snapshot => snapshot = l.registry.snapshot
  | .nodeLabels node, answer => ∀ labels, answer = .ok labels → labels = l.labels node
  | .methodJobs request method, answer =>
    ∀ jobs, answer = .ok jobs → jobs = l.jobs.filter (·.isFor request method)
  | .createJob job, answer => RequestCall.saysCreated answer = true → l.Holds job.metadata.name
  | .getRequest _, answer => ∀ r?, answer = .ok r? → l.latest? = r?
  | .patchStatus _ _ s, answer =>
    answer = .ok () → l.latest? = none ∨ ∃ r ∈ l.revisions, r.status = some s

theorem Effect.tells {a : c.Answer} (h : l.Effect c a l') : l'.Tells c a := by
  cases h with
  | configs => exact rfl
  | nodeLabels => exact fun _ ha => (Except.ok.inj ha).symm
  | methodJobs => exact fun _ ha => (Except.ok.inj ha).symm
  | created free =>
      exact fun _ => ⟨_, List.mem_append_right _ (List.mem_singleton_self _), rfl⟩
  | taken h => exact fun _ => h
  | read => exact fun _ ha => Except.ok.inj ha
  | landed =>
      exact fun _ => .inr ⟨_, List.mem_append_right _ (List.mem_singleton_self _), rfl⟩
  | refused => exact fun ha => nomatch ha
  | gone _ latest => exact fun _ => .inl latest

/-- **An answer is true**, and a failure says nothing. -/
theorem Serves.tells {a : c.Answer} (h : l.Serves c a l') : l'.Tells c a := by
  cases h with
  | effect h => exact h.tells
  | failed fallible _ honest =>
      cases c with
      | configs => exact absurd rfl fallible
      | nodeLabels => exact fun _ ha => nomatch ha
      | methodJobs => exact fun _ ha => nomatch ha
      | createJob job => exact honest job rfl
      | getRequest => exact fun _ ha => nomatch ha
      | patchStatus => exact fun ha => nomatch ha

end Ledger

end NodeFencing
