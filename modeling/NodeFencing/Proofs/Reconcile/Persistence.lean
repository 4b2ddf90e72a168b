import NodeFencing.Proofs.Backoff
import NodeFencing.Proofs.Reconcile.Route

/-!
# Writes that are lost

A status is written over the revision that was read.  If the request has changed since then, the
write is lost, and to repeat it would be in vain: it is not tried again, however many attempts
there may be left.  Any other failure is taken for a passing one, and the same write is tried
again, until the attempts are used up.

So much is true of one write, and each pass writes once at most, as the last thing that it does.
If the write of a pass is lost, the request is read again, and there is one more pass over what
was read.  If that one loses its write as well, nothing more is done.

## Main Definitions

* `Request.Writing` — the calls by which a status is written, and their answers
* `Request.WritesOnce` — a pass that writes once at most, at its end
* `Request.Reacts` — what is done about a request behind a pass

## Main statements

* `persist_performs_iff` — what is done to write a status
* `pass_writesOnce` — a pass writes once at most
* `reconcile_performs_iff` — what is done behind a pass
* `conflicts_not_repeated` — a write that is lost is not repeated
-/

namespace NodeFencing

variable {settings : Settings} {r : Request} {now : Instant} {old new : Status}
  {acts : List (Act RequestStore)}

/-! ### A write -/

/-- An answer behind which a write is not tried again: it was done, or it is lost. -/
def Settles (answer : Except TaskError Unit) : Prop :=
  answer = .ok () ∨ ∃ e, answer = .error e ∧ e.isConflict = true

/-- The calls by which a status is written.  All of them are the same call, with the revision of the
request that was read.  Some have failed for other reasons than that the request has changed, and
there was a pause behind each; the last one settles it, or no attempts are left. -/
structure Request.Writing (r : Request) (settings : Settings) (new : Status)
    (failures : List (Except TaskError Unit)) (last : Except TaskError Unit)
    (acts : List (Act RequestStore)) : Prop where
  acts : acts =
    settings.retry.backoff.failedCalls (I := RequestStore)
      (.patchStatus r.name r.metadata.resourceVersion new) 1 failures ++
        [.call (.patchStatus r.name r.metadata.resourceVersion new) last]
  failed : ∀ answer ∈ failures, ∃ e, answer = .error e ∧ e.isConflict = false
  attempts : failures.length + 1 ≤ max settings.retry.steps 1
  ended : Settles last ∨ failures.length + 1 = max settings.retry.steps 1

section Settled

variable {answer written : Except TaskError Unit} {e : TaskError}

/-- What is settled is a result, whether it is a success or not. -/
theorem settled_eq_ok_iff :
    settled TaskError.isConflict answer = .ok written ↔ answer = written ∧ Settles answer := by
  cases answer with
  | ok a => simp [settled, Settles]
  | error e => cases he : e.isConflict <;> simp [settled, Settles, he]

/-- Any other failure remains one. -/
theorem settled_eq_error_iff : settled TaskError.isConflict answer = .error e ↔
    answer = .error e ∧ e.isConflict = false := by
  cases answer with
  | ok a => simp [settled]
  | error e' => grind [settled]

theorem isOk_settled_iff : (settled TaskError.isConflict answer).isOk = true ↔ Settles answer := by
  cases hsettled : settled TaskError.isConflict answer with
  | ok written => exact iff_of_true rfl (settled_eq_ok_iff.mp hsettled).2
  | error e =>
      obtain ⟨rfl, he⟩ := settled_eq_error_iff.mp hsettled
      exact iff_of_false nofun (by simp [Settles, he])

theorem isOk_settled_eq_false_iff : (settled TaskError.isConflict answer).isOk = false ↔
    ∃ e, answer = .error e ∧ e.isConflict = false := by
  simp only [← settled_eq_error_iff]
  cases settled TaskError.isConflict answer with
  | ok written => exact iff_of_false nofun nofun
  | error e => exact iff_of_true rfl ⟨e, rfl⟩

end Settled

/-- A write is tried until it is settled, or until the attempts are used up. -/
theorem retry_write_performs_iff {outcome : Except TaskError (Except TaskError Unit)} :
    (Program.retry settings.retry.backoff <|
      (RequestStore.patchStatus r.name r.metadata.resourceVersion new).bind fun answer =>
        .done (settled TaskError.isConflict answer)).Performs acts outcome ↔
      ∃ failures last, r.Writing settings new failures last acts ∧
        outcome = settled TaskError.isConflict last := by
  refine (Program.retry_ask_performs_iff (I := RequestStore)
    (c := .patchStatus r.name r.metadata.resourceVersion new)
    (f := settled TaskError.isConflict)).trans ?_
  constructor
  · rintro ⟨failures, last, hacts, failed, attempts, ended, houtcome⟩
    refine ⟨failures, last, ⟨hacts, fun answer hanswer => ?_, attempts, ?_⟩, houtcome⟩
    · exact isOk_settled_eq_false_iff.mp (failed answer hanswer)
    · exact ended.imp_left isOk_settled_iff.mp
  · rintro ⟨failures, last, ⟨hacts, failed, attempts, ended⟩, houtcome⟩
    refine ⟨failures, last, hacts, fun answer hanswer => ?_, attempts, ?_, houtcome⟩
    · exact isOk_settled_eq_false_iff.mpr (failed answer hanswer)
    · exact ended.imp_left isOk_settled_iff.mpr

/-- **What is done to write a status**: nothing if it has not changed, and otherwise the calls of a
write, the last answer to which is the result. -/
theorem persist_performs_iff {result : Except TaskError Unit} :
    (persist settings r old new).run.Performs acts result ↔
      if old = new then acts = [] ∧ result = .ok ()
      else ∃ failures, r.Writing settings new failures result acts := by
  unfold persist
  split
  · exact Program.performs_done_iff
  · rw [Task.performs_bind_iff]
    constructor
    · -- Whatever the last answer is, it comes out as the result.
      rintro (⟨before, result', behind, rfl, hretry, hdone⟩ | ⟨e, hretry, rfl⟩)
      · obtain ⟨rfl, rfl⟩ := Program.performs_done_iff.mp hdone
        obtain ⟨failures, last, hwriting, hlast⟩ := retry_write_performs_iff.mp hretry
        obtain ⟨rfl, -⟩ := settled_eq_ok_iff.mp hlast.symm
        rw [List.append_nil]
        exact ⟨failures, hwriting⟩
      · obtain ⟨failures, last, hwriting, hlast⟩ := retry_write_performs_iff.mp hretry
        obtain ⟨rfl, -⟩ := settled_eq_error_iff.mp hlast.symm
        exact ⟨failures, hwriting⟩
    · rintro ⟨failures, hwriting⟩
      have hretry := retry_write_performs_iff.mpr ⟨failures, result, hwriting, rfl⟩
      cases hsettled : settled TaskError.isConflict result with
      | ok written =>
          obtain ⟨rfl, -⟩ := settled_eq_ok_iff.mp hsettled
          rw [hsettled] at hretry
          exact .inl ⟨acts, result, [], (List.append_nil acts).symm, hretry, .done⟩
      | error e =>
          obtain ⟨rfl, -⟩ := settled_eq_error_iff.mp hsettled
          rw [hsettled] at hretry
          exact .inr ⟨e, hretry, rfl⟩

/-! ### Programs that make only some calls -/

/-- The contract of a program that makes only some calls, whatever it is told. -/
def Contract.only {I : Interface} (allowed : I.Call → Prop) : Contract I Unit where
  holds _ := True
  evolves _ _ := True
  permits _ := allowed
  reports _ _ _ := True
  evolves_refl _ := trivial
  evolves_trans _ _ := trivial
  permits_mono _ h := h

/-- A program that keeps this contract makes no other calls on its way. -/
theorem Program.Keeps.allowed_of_performs {I : Interface} {α : Type} {allowed : I.Call → Prop}
    {p : Program I α} {post : Unit → α → Prop} {acts : List (Act I)} {a : α}
    (h : p.Keeps (Contract.only allowed) post ()) (hp : p.Performs acts a) :
    ∀ c answer, Act.call c answer ∈ acts → allowed c := by
  induction hp with
  | done => exact nofun
  | call _ ih =>
      intro c answer hmem
      rcases List.mem_cons.mp hmem with hfirst | hrest
      · cases hfirst
        exact h.1
      · exact ih (h.2 () _ ⟨trivial, trivial⟩ trivial) c answer hrest
  | pause _ ih =>
      intro c answer hmem
      exact ih h c answer ((List.mem_cons.mp hmem).resolve_left nofun)
  | clock _ ih =>
      intro c answer hmem
      exact ih (h () _ ⟨trivial, trivial⟩ trivial) c answer
        ((List.mem_cons.mp hmem).resolve_left nofun)

/-! ### A pass -/

/-- Whether a call writes a status. -/
def RequestCall.IsWrite : RequestCall → Prop
  | patchStatus .. => True
  | _ => False

/-- A pass that writes once at most, at its end.  Before this it makes no calls of the kind; and if
the write fails, this is the result of the pass. -/
def Request.WritesOnce (r : Request) (settings : Settings) (acts : List (Act RequestStore))
    (result : Except TaskError Outcome) : Prop :=
  ∃ before behind, acts = before ++ behind ∧
    (∀ c answer, Act.call c answer ∈ before → ¬ RequestCall.IsWrite c) ∧
    (behind = [] ∨ ∃ new failures last, r.Writing settings new failures last behind ∧
      ∀ e, last = .error e → result = .error e)

/-- The same of a part of a pass that goes on to its end. -/
def Request.Closes (r : Request) (settings : Settings) (t : RequestTask Outcome) : Prop :=
  ∀ acts result, t.run.Performs acts result → r.WritesOnce settings acts result

/-- Under this contract nothing is written. -/
abbrev unwritten : Contract RequestStore Unit :=
  .only fun c => ¬ RequestCall.IsWrite c

namespace Request.Closes

theorem pure {outcome : Outcome} : r.Closes settings (Pure.pure outcome) := by
  intro acts result h
  obtain ⟨rfl, rfl⟩ := Program.performs_done_iff.mp h
  exact ⟨[], [], rfl, fun _ _ h => absurd h List.not_mem_nil, .inl rfl⟩

/-- What is done before the write. -/
theorem bind {α : Type} {t : RequestTask α} {f : α → RequestTask Outcome} {post : Unit → α → Prop}
    (h : Task.Keeps unwritten post t ()) (hf : ∀ a, r.Closes settings (f a)) :
    r.Closes settings (t >>= f) := by
  intro acts result hperforms
  obtain ⟨early, a, late, rfl, ht, hlate⟩ | ⟨e, ht, rfl⟩ := Task.performs_bind_iff.mp hperforms
  · obtain ⟨before, behind, rfl, hbefore, hbehind⟩ := hf a _ _ hlate
    refine ⟨early ++ before, behind, (List.append_assoc ..).symm, fun c answer hmem => ?_, hbehind⟩
    rcases List.mem_append.mp hmem with hearly | hmem
    · exact h.allowed_of_performs ht c answer hearly
    · exact hbefore c answer hmem
  · exact ⟨acts, [], (List.append_nil acts).symm, h.allowed_of_performs ht, .inl rfl⟩

/-- The write itself. -/
theorem persist {outcome : Outcome} :
    r.Closes settings (do persist settings r old new; return outcome) := by
  intro acts result hperforms
  have closes {acts : List (Act RequestStore)} {last : Except TaskError Unit}
      (hwrite : (NodeFencing.persist settings r old new).run.Performs acts last)
      (hresult : ∀ e, last = .error e → result = .error e) : r.WritesOnce settings acts result := by
    have performed := persist_performs_iff.mp hwrite
    refine ⟨[], acts, rfl, fun _ _ h => absurd h List.not_mem_nil, ?_⟩
    split at performed
    · exact .inl performed.1
    · obtain ⟨failures, hwriting⟩ := performed
      exact .inr ⟨new, failures, last, hwriting, hresult⟩
  obtain ⟨before, u, behind, rfl, hwrite, hdone⟩ | ⟨e, hwrite, rfl⟩ :=
    Task.performs_bind_iff.mp hperforms
  · obtain ⟨rfl, -⟩ := Program.performs_done_iff.mp hdone
    rw [List.append_nil]
    exact closes hwrite nofun
  · exact closes hwrite fun e' he => by rw [Except.error.inj he]

/-- What is done at some time. -/
theorem stamped {f : Instant → RequestTask Outcome} (hf : ∀ t, r.Closes settings (f t)) :
    r.Closes settings (Task.now >>= f) :=
  bind (.now (fun _ _ => True) fun _ _ _ _ => trivial) hf

theorem dispatch {s : Status} {c : Config} {m : Method} :
    r.Closes settings (NodeFencing.dispatch settings r old s c m) := by
  unfold NodeFencing.dispatch
  refine stamped fun t => ?_
  split
  · exact stamped fun t' => persist
  · exact bind (createJob_keeps trivial id) fun _ => stamped fun t' => persist

theorem proceed {s : Status} {c : Config} :
    r.Closes settings (NodeFencing.proceed settings r now old s c) := by
  have looked : Task.Keeps unwritten (fun _ _ => True) (observe r.name s) () := by
    cases hm : s.activeMethod with
    | none =>
        rw [observe_idle hm]
        exact .pure trivial
    | some method => exact .weaken trivial (observe_keeps trivial hm id) fun _ _ _ _ => trivial
  refine bind looked fun ⟨s', state⟩ => ?_
  dsimp only
  split
  · exact persist
  · exact persist
  · exact stamped fun t => persist
  · exact stamped fun t => persist
  · exact dispatch

theorem advance : r.Closes settings (NodeFencing.advance settings r now) := by
  have labelled : Task.Keeps unwritten (fun _ _ => True)
      (ExceptT.mk (RequestStore.nodeLabels r.target)) () :=
    ⟨id, fun _ _ _ _ _ _ => trivial⟩
  have configured : Task.Keeps unwritten (fun _ _ => True)
      (ExceptT.lift RequestStore.configs : RequestTask Snapshot) () :=
    ⟨id, fun _ _ _ _ _ _ => trivial⟩
  refine bind labelled fun labels => bind configured fun snapshot => ?_
  split
  · exact stamped fun t => persist
  · next config _ => exact bind (choose_keeps config trivial) fun s => proceed

end Request.Closes

/-- **A pass writes once at most**, as the last thing that it does.  If the write is lost, nothing
is done any more, and this is the result. -/
theorem pass_writesOnce {result : Except TaskError Outcome}
    (h : (pass settings r now).run.Performs acts result) : r.WritesOnce settings acts result := by
  suffices closes : r.Closes settings (pass settings r now) from closes acts result h
  unfold pass
  split
  · exact .pure
  · split
    · split
      · exact .pure
      · exact .advance
    · exact .advance

/-! ### Behind a pass -/

/-- What is done about a request behind a pass.  Only if the write of the pass is lost is anything
done: the request is read again, and if it is still there, there is a pass over what was read.
Nothing is done behind this one. -/
inductive Request.Reacts (r : Request) (settings : Settings) (now : Instant) :
    Except TaskError Outcome → List (Act RequestStore) → Except TaskError Outcome → Prop
  | ends {a} (h : ∀ e, a = .error e → e.isConflict = false) : Reacts r settings now a [] a
  | unread {e e'} (conflict : e.isConflict = true) :
      Reacts r settings now (.error e) [.call (.getRequest r.name) (.error e')] (.error e')
  | gone {e} (conflict : e.isConflict = true) :
      Reacts r settings now (.error e) [.call (.getRequest r.name) (.ok none)] (.ok .done)
  | again {e latest acts result} (conflict : e.isConflict = true)
      (second : (pass settings latest now).run.Performs acts result) :
      Reacts r settings now (.error e) (.call (.getRequest r.name) (.ok (some latest)) :: acts)
        result

/-- **What is done behind a pass.** -/
theorem reconcile_performs_iff {result : Except TaskError Outcome} :
    (reconcile settings r now).run.Performs acts result ↔ ∃ first a rest, acts = first ++ rest ∧
      (pass settings r now).run.Performs first a ∧ r.Reacts settings now a rest result := by
  refine Program.performs_bind_iff.trans ?_
  constructor
  · rintro ⟨first, a, rest, rfl, hpass, hrest⟩
    refine ⟨first, a, rest, rfl, hpass, ?_⟩
    cases a with
    | ok outcome =>
        obtain ⟨rfl, rfl⟩ := Program.performs_done_iff.mp hrest
        exact .ends nofun
    | error e =>
        dsimp only at hrest
        split at hrest
        · next conflict =>
            obtain ⟨asked, answer, rest, rfl, hask, hlatest⟩ := Program.performs_bind_iff.mp hrest
            obtain rfl := Program.performs_ask_iff.mp hask
            match answer with
            | .error e' =>
                obtain ⟨rfl, rfl⟩ := Program.performs_done_iff.mp hlatest
                exact .unread conflict
            | .ok none =>
                obtain ⟨rfl, rfl⟩ := Program.performs_done_iff.mp hlatest
                exact .gone conflict
            | .ok (some latest) => exact .again conflict hlatest
        · next other =>
            obtain ⟨rfl, rfl⟩ := Program.performs_done_iff.mp hrest
            exact .ends fun e' he => by rw [← Except.error.inj he]; simpa using other
  · rintro ⟨first, a, rest, rfl, hpass, hreacts⟩
    refine ⟨first, a, rest, rfl, hpass, ?_⟩
    cases hreacts with
    | ends h =>
        cases result with
        | ok outcome => exact .done
        | error e =>
            simp only [h e rfl, Bool.false_eq_true, if_false]
            exact .done
    | unread conflict | gone conflict =>
        simp only [conflict, if_true]
        exact .call .done
    | again conflict second =>
        simp only [conflict, if_true]
        exact .call second

/-- **A write that is lost is not repeated.**  A status that has not changed is not written.  For
any other one the same call is made, over the revision that was read, until it succeeds, or is lost,
or the attempts are used up; then the last answer is the result.  A pass writes once at most, at its
end.  If this write is lost, the request is read again and there is one more pass, over what was
read; behind this one nothing more is done. -/
theorem conflicts_not_repeated (settings : Settings) (r : Request) (now : Instant) :
    (∀ old new acts result, (persist settings r old new).run.Performs acts result ↔
      if old = new then acts = [] ∧ result = .ok ()
      else ∃ failures, r.Writing settings new failures result acts) ∧
    (∀ acts result, (pass settings r now).run.Performs acts result →
      r.WritesOnce settings acts result) ∧
    ∀ acts result, (reconcile settings r now).run.Performs acts result ↔
      ∃ first a rest, acts = first ++ rest ∧ (pass settings r now).run.Performs first a ∧
        r.Reacts settings now a rest result :=
  ⟨fun _ _ _ _ => persist_performs_iff, fun _ _ => pass_writesOnce,
    fun _ _ => reconcile_performs_iff⟩

/-- A request for whose node there is no configuration. -/
def orphan : Request where
  metadata := { name := some "fence-node-1", resourceVersion := some "1" }
  target := "node-1"

/-- The same request, once it was ended by somebody else. -/
def ended : Request :=
  { orphan with status := some { complete := true } }

/-- The status with which a pass would end it. -/
def orphaned : Status :=
  ({} : Status).finalize default .noConfig "" (some (FencingError.noConfig "node-1").message)

/-- The acts of a pass that would end it: the cluster is out of order at first, and then the write
is lost. -/
def orphanActs (b : Backoff) : List (Act RequestStore) :=
  let write := RequestCall.patchStatus "fence-node-1" (some "1") orphaned
  [.call (.nodeLabels "node-1") (.ok []), .call .configs [], .clock default,
    .call write (.error (.api (.refused 503))), .pause (b.delay 1),
    .call write (.error (.conflict "fence-node-1"))]

/-- Of five attempts two are made, and behind them there is nothing to do. -/
theorem conflicts_not_repeated_orphan :
    let lost : Except TaskError Outcome := .error (.conflict "fence-node-1")
    let acts := orphanActs ({} : Settings).retry.backoff
    (pass {} orphan default).run.Performs acts lost ∧ orphan.WritesOnce {} acts lost ∧
      (reconcile {} orphan default).run.Performs
        (acts ++ [.call (.getRequest "fence-node-1") (.ok (some ended))]) (.ok .done) := by
  have writing : orphan.Writing {} orphaned [.error (.api (.refused 503))]
      (.error (.conflict "fence-node-1")) ((orphanActs ({} : Settings).retry.backoff).drop 3) :=
    { acts := rfl
      failed := fun _ h => ⟨_, List.mem_singleton.mp h, rfl⟩
      attempts := by decide
      ended := .inl (.inr ⟨_, rfl, rfl⟩) }
  obtain ⟨persists, writesOnce, reconciles⟩ := conflicts_not_repeated {} orphan default
  have written := (persists {} orphaned _ _).mpr (by rw [if_neg (by decide)]; exact ⟨_, writing⟩)
  have passes : (pass {} orphan default).run.Performs
      (orphanActs ({} : Settings).retry.backoff) (.error (.conflict "fence-node-1")) :=
    .call (.call (.clock (Task.performs_bind_iff.mpr (.inr ⟨_, written, rfl⟩))))
  refine ⟨passes, writesOnce _ _ passes, (reconciles _ _).mpr ⟨_, _, _, rfl, passes, ?_⟩⟩
  exact .again rfl .done

end NodeFencing
