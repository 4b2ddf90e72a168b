import NodeFencing.Method.Job

/-!
# The jobs of a method

The job that carries out a method is found again by two of its labels, which hold the
names of the request and of the method.  It depends on a request only in what tells this
request from others, and in what it asks for.

## Main Definitions

* `Request.Kin` — revisions of one request, for which the same jobs are made
* `Method.Carries` — a job with the name and the labels of the job of a method

## Main statements

* `methodState_succeeded_iff`, `methodState_singleton` — the state of several jobs
* `Job.isFor_iff` — the labels by which a job is found
* `Method.buildJob_ok` — what every job that carries out a method has
* `Request.Kin.buildJob` — the jobs of kin are the same
-/

namespace NodeFencing

/-! ### States -/

/-- A job that exists is in some state. -/
theorem Job.state_ne_missing (j : Job) : j.state ≠ .missing := by
  have outcome (c : Condition) : c.outcome? ≠ some .missing := by
    unfold Condition.outcome?
    split
    · exact nofun
    · split
      · exact nofun
      · split <;> exact nofun
  unfold state
  split
  · next status _ =>
      unfold JobStatus.state
      split
      · next result hresult =>
          obtain ⟨c, -, hc⟩ := List.exists_of_findSome?_eq_some hresult
          rintro rfl
          exact outcome c hc
      · split
        · exact nofun
        · split <;> exact nofun
  · exact nofun

/-- Jobs have succeeded if one of them has. -/
theorem methodState_succeeded_iff {jobs : List Job} :
    methodState jobs = .succeeded ↔ ∃ j ∈ jobs, j.state = .succeeded := by
  unfold methodState
  cases jobs with
  | nil => simp
  | cons j rest =>
      simp only [List.isEmpty_cons, Bool.false_eq_true, if_false, List.contains_iff_mem,
        List.mem_map]
      split
      · next h => exact ⟨fun _ => h, fun _ => rfl⟩
      · next h =>
          refine ⟨fun hs => ?_, fun hs => absurd hs h⟩
          split at hs <;> cases hs

/-- The state of a single job is its own. -/
theorem methodState_singleton (j : Job) : methodState [j] = j.state := by
  cases hstate : j.state with
  | missing => exact absurd hstate j.state_ne_missing
  | _ => simp [methodState, hstate]

/-! ### Labels -/

/-- The labels by which a job is found. -/
theorem Job.isFor_iff {j : Job} {request method : String} :
    j.isFor request method = true ↔
      j.metadata.label? requestLabel = some (labelValue request) ∧
        j.metadata.label? methodLabel = some (labelValue method) := by
  simp [isFor, jobLabels, Selector.holds]

/-! ### Revisions of one request -/

/-- Revisions of one request: they have its identity, and ask for the same. -/
structure Request.Kin (r r' : Request) : Prop where
  name : r'.name = r.name
  uid : r'.metadata.uid = r.metadata.uid
  inNamespace : r'.metadata.inNamespace = r.metadata.inNamespace
  target : r'.target = r.target
  operation : r'.operation = r.operation

namespace Request.Kin

variable {r r' r'' : Request}

theorem refl (r : Request) : r.Kin r :=
  ⟨rfl, rfl, rfl, rfl, rfl⟩

theorem trans (h : r.Kin r') (h' : r'.Kin r'') : r.Kin r'' where
  name := h'.name.trans h.name
  uid := h'.uid.trans h.uid
  inNamespace := h'.inNamespace.trans h.inNamespace
  target := h'.target.trans h.target
  operation := h'.operation.trans h.operation

theorem jobName (h : r.Kin r') (method : String) : r'.jobName method = r.jobName method := by
  simp only [Request.jobName, h.name, h.uid]

/-- **The jobs of kin are the same.** -/
theorem buildJob (h : r.Kin r') (m : Method) (c : Config) (settings : BuildSettings) :
    m.buildJob c r' settings = m.buildJob c r settings := by
  simp only [Method.buildJob, Method.parts, Method.labels, Request.owner, h.jobName, h.name, h.uid,
    h.inNamespace, h.target, h.operation]

end Request.Kin

/-! ### Jobs of methods -/

namespace Method

/-- A job with the name and the labels of the job of a method. -/
structure Carries (m : Method) (c : Config) (r : Request) (j : Job) : Prop where
  name : j.metadata.name = some (r.jobName m.name)
  labels : j.metadata.labels = some (m.labels c r)

variable {m m' : Method} {c : Config} {r : Request} {j j' : Job}

namespace Carries

theorem label_request (h : m.Carries c r j) :
    j.metadata.label? requestLabel = some (labelValue r.name) := by
  simp [Meta.label?, h.labels, Method.labels, StringMap.get?, List.lookup_cons, requestLabel,
    configLabel, methodLabel]

theorem label_config (h : m.Carries c r j) :
    j.metadata.label? configLabel = some (labelValue c.name) := by
  simp [Meta.label?, h.labels, Method.labels, StringMap.get?, List.lookup_cons, configLabel]

theorem label_method (h : m.Carries c r j) :
    j.metadata.label? methodLabel = some (labelValue m.name) := by
  simp [Meta.label?, h.labels, Method.labels, StringMap.get?, List.lookup_cons, configLabel,
    methodLabel]

/-- The job of a method is found by its labels. -/
theorem isFor (h : m.Carries c r j) : j.isFor r.name m.name = true :=
  Job.isFor_iff.mpr ⟨h.label_request, h.label_method⟩

/-- A job that is found for a method carries its label. -/
theorem labelValue_eq (h : m.Carries c r j) {method : String}
    (hfor : j.isFor r.name method = true) : labelValue m.name = labelValue method := by
  have hlabel := (Job.isFor_iff.mp hfor).2
  exact Option.some.inj (h.label_method.symm.trans hlabel)

theorem congr (h : m.Carries c r j) (hname : j'.metadata.name = j.metadata.name)
    (hlabels : j'.metadata.labels = j.metadata.labels) : m.Carries c r j' :=
  ⟨hname.trans h.name, hlabels.trans h.labels⟩

end Carries

/-- **What every job that carries out a method has**: its name, its labels, the request as its
owner, and no status yet. -/
theorem buildJob_ok {settings : BuildSettings} (h : m.buildJob c r settings = .ok j) :
    m.Carries c r j ∧ j.metadata.owners = some [r.owner] ∧ j.status = none := by
  unfold buildJob at h
  cases hparts : m.parts r settings with
  | error e => simp [hparts, bind, Except.bind] at h
  | ok parts =>
      simp only [hparts, bind, Except.bind, pure, Except.pure, Except.ok.injEq] at h
      subst h
      exact ⟨⟨rfl, rfl⟩, rfl, rfl⟩

end Method

end NodeFencing
