import Mathlib.Data.List.TakeWhile
import NodeFencing.Proofs.Reconcile.Guide
import NodeFencing.Proofs.Request.Codec

/-!
# The entries of a log

An entry of the log of a request says which milestone was reached, with a detail.  Both can
be read back from its wording, so what is said of one milestone is said of no other.  The
times of the entries are left aside here.

At most points a pass records outcomes and choices; that a job was dispatched is said in one
place only.

## Main Definitions

* `Entry`, `Status.log` — a log without its times
* `Entry.dispatched`, `Silent` — what is said of a dispatch, and entries that say nothing of it
* `Request.news` — by what the log of a revision is longer than that of the one before
* `Status.SilentSince` — a status that adds nothing of a dispatch to the log of a revision

## Main statements

* `Status.message_inj` — the milestone and the detail of an entry
* `Status.SilentSince.choosing`, `Status.SilentSince.observing` — where nothing is said of a
  dispatch
* `Status.SilentSince.dispatched` — where it is
-/

namespace NodeFencing

/-! ### Messages -/

theorem Result.name_inj {result result' : Result} (h : result.name = result'.name) :
    result = result' := by
  have named := congrArg named? h
  rw [named?_name, named?_name] at named
  exact Option.some.inj named

namespace Status

/-- A message begins with the name of its milestone, up to the first colon. -/
theorem takeWhile_message (result : Result) (detail : String) :
    (message result detail).toList.takeWhile (· != ':') = result.name.toList := by
  have colonless : ∀ c ∈ result.name.toList, (c != ':') = true := by
    refine List.all_eq_true.mp ?_
    cases result <;> decide
  unfold message
  split
  · exact List.takeWhile_eq_self_iff.mpr colonless
  · rw [String.append_assoc, String.toList_append, List.takeWhile_append_of_pos colonless,
      String.toList_append]
    exact List.append_nil _

/-- **What a message says**: the milestone and the detail are those that were recorded. -/
theorem message_inj {result result' : Result} {detail detail' : String}
    (h : message result detail = message result' detail') :
    result = result' ∧ detail = detail' := by
  obtain rfl : result = result' := by
    refine Result.name_inj (String.toList_inj.mp ?_)
    rw [← takeWhile_message result detail, h, takeWhile_message]
  refine ⟨rfl, ?_⟩
  have longer (text : String) : result.name ++ ": " ++ text ≠ result.name := by
    intro heq
    have lengths := congrArg String.length heq
    have colon : ": ".length = 2 := by decide
    rw [String.length_append, String.length_append] at lengths
    omega
  unfold message at h
  split at h <;> split at h
  · next hd hn => rw [String.isEmpty_iff.mp hd, String.isEmpty_iff.mp hn]
  · exact absurd h.symm (longer _)
  · exact absurd h (longer _)
  · exact (String.append_right_inj _).mp h

end Status

/-! ### Logs without times -/

/-- An entry of a log without its time. -/
structure Entry where
  method : Option String
  message : String
  error : Option String
  deriving Repr, DecidableEq

/-- The entry that records a milestone. -/
def Entry.of (method : Option String) (result : Result) (detail : String := "")
    (error : Option String := none) : Entry where
  method := method
  message := Status.message result detail
  error := error

/-- An entry without its time. -/
def Update.entry (u : Update) : Entry :=
  ⟨u.method, u.message, u.error⟩

namespace Status

/-- The log without its times. -/
def log (s : Status) : List Entry :=
  s.updates.map Update.entry

variable (s : Status) (t : Instant)

@[simp] theorem log_record (method : Option String) (result : Result) (detail : String)
    (error : Option String) :
    (s.record t method result detail error).log = s.log ++ [.of method result detail error] := by
  simp [log, record, Update.entry, Entry.of]

@[simp] theorem log_finalize (result : Result) (detail : String) (error : Option String) :
    (s.finalize t result detail error).log = s.log ++ [.of none result detail error] :=
  log_record _ t none result detail error

theorem log_choosing {c : Config} (h : s.config ≠ some c.name) :
    (s.choosing c t).log = s.log ++ [.of none .configSelected c.name] := by
  unfold choosing
  rw [if_neg h]
  split <;> exact log_record _ t none .configSelected c.name none

/-- To look at the jobs records their outcome, or nothing. -/
theorem log_observing (method : String) (jobs : List Job) :
    (s.observing method jobs t).log = s.log ∨
      ∃ result error, (result = .methodSucceeded ∧ methodState jobs = .succeeded ∨
          result = .methodFailed) ∧
        (s.observing method jobs t).log = s.log ++ [.of (some method) result "" error] := by
  unfold observing
  split
  · exact .inl rfl
  · next hstate => exact .inr ⟨_, _, .inl ⟨rfl, hstate⟩, log_record s t _ _ _ _⟩
  · exact .inr ⟨_, _, .inr rfl, log_record s t _ _ _ _⟩
  · exact .inr ⟨_, _, .inr rfl, log_record s t _ _ _ _⟩
  · exact .inl rfl

@[simp] theorem log_selecting (method : String) :
    (s.selecting method t).log = s.log ++ [.of (some method) .methodSelected] :=
  log_record _ t (some method) .methodSelected "" none

@[simp] theorem log_dispatched (method job : String) :
    (s.dispatched method job t).log = s.log ++ [.of (some method) .jobDispatched job] :=
  log_record _ t (some method) .jobDispatched job none

/-- A method that is put in use fails at once if its job cannot be built. -/
theorem log_aborted (method error : String) (t' : Instant) :
    ((s.selecting method t).record t' (some method) .methodFailed "" (some error)).log =
      s.log ++ [.of (some method) .methodSelected,
        .of (some method) .methodFailed "" (some error)] := by
  rw [log_record, log_selecting, List.append_assoc]
  rfl

/-- A method is put in use, and its job is there. -/
theorem log_begun (method job : String) (t' : Instant) :
    ((s.selecting method t).dispatched method job t').log =
      s.log ++ [.of (some method) .methodSelected, .of (some method) .jobDispatched job] := by
  rw [log_dispatched, log_selecting, List.append_assoc]
  rfl

variable {s} in
/-- What is written when a method is put in use. -/
theorem Concludes.of_dispatch {settings : Settings} {r : Request} {c : Config} {index : Nat}
    {m : Method} {s' : Status} {outcome : Outcome}
    (h : s.Concludes settings r c (.dispatch index m) s' outcome) :
    s'.config = s.config ∧ s'.complete = s.complete ∧ s'.activeMethod = some m.name ∧
      ∃ entries, s'.log = s.log ++ (.of (some m.name) .methodSelected :: entries) := by
  cases h with
  | aborts => exact ⟨rfl, rfl, rfl, _, log_aborted _ _ _ _ _⟩
  | dispatches => exact ⟨rfl, rfl, rfl, _, log_begun _ _ _ _ _⟩

end Status

/-! ### What a log says of dispatches -/

/-- The entry that says that the job of a method was created. -/
def Entry.dispatched (method name : String) : Entry :=
  .of (some method) .jobDispatched name

theorem Entry.of_eq_dispatched {method : Option String} {result : Result} {detail : String}
    {error : Option String} {m name : String}
    (h : Entry.of method result detail error = .dispatched m name) :
    result = .jobDispatched ∧ detail = name :=
  Status.message_inj (congrArg Entry.message h)

/-- Entries that say nothing of a dispatch. -/
def Silent (entries : List Entry) : Prop :=
  ∀ method name, Entry.dispatched method name ∉ entries

theorem silent_nil : Silent [] :=
  fun _ _ => List.not_mem_nil

theorem silent_concat {entries : List Entry} {method : Option String} {result : Result}
    {detail : String} {error : Option String} (h : Silent entries)
    (hresult : result ≠ .jobDispatched) :
    Silent (entries ++ [.of method result detail error]) := by
  intro m name hmem
  rcases List.mem_append.mp hmem with hold | hnew
  · exact h m name hold
  · exact hresult (Entry.of_eq_dispatched (List.mem_singleton.mp hnew).symm).1

/-- The log of a request. -/
def Request.log (r : Request) : List Entry :=
  (r.status.getD {}).log

/-- By what the log of a revision is longer than the log of the one before. -/
def Request.news (r r' : Request) : List Entry :=
  r'.log.drop r.log.length

theorem Request.news_of_status_eq {r r' : Request} (h : r'.status = r.status) : r.news r' = [] := by
  simp [news, log, h]

theorem Request.news_written {r : Request} {s : Status} {revision : Option String}
    {entries : List Entry} (h : s.log = r.log ++ entries) :
    r.news (r.written s revision) = entries := by
  have stored : (r.written s revision).log = r.log ++ entries := h
  rw [news, stored, List.drop_left]

/-- What a status adds behind another one that goes on from a revision is news to this one. -/
theorem Request.mem_news {r r' : Request} {s : Status} {entries : List Entry} {e : Entry}
    (goesOn : r.log <+: s.log) (h : r'.log = s.log ++ entries) (he : e ∈ entries) :
    e ∈ r.news r' := by
  obtain ⟨more, hmore⟩ := goesOn
  have stored : r'.log = r.log ++ (more ++ entries) := by
    rw [h, ← hmore, List.append_assoc]
  rw [news, stored, List.drop_left]
  exact List.mem_append_right _ he

/-- A status that adds nothing of a dispatch to the log of a revision. -/
def Status.SilentSince (s : Status) (r : Request) : Prop :=
  ∃ entries, s.log = r.log ++ entries ∧ Silent entries

namespace Status.SilentSince

variable {r : Request} {s s' : Status}

theorem start : (r.status.getD {}).SilentSince r :=
  ⟨[], (List.append_nil _).symm, silent_nil⟩

/-- Anything but a dispatch may be recorded. -/
theorem records (h : s.SilentSince r) {method : Option String} {result : Result}
    {detail : String} {error : Option String}
    (log : s'.log = s.log ++ [.of method result detail error])
    (hresult : result ≠ .jobDispatched) : s'.SilentSince r := by
  obtain ⟨entries, hlog, hsilent⟩ := h
  exact ⟨_, by rw [log, hlog, List.append_assoc], silent_concat hsilent hresult⟩

theorem choosing (h : s.SilentSince r) (c : Config) (t : Instant) :
    (s.choosing c t).SilentSince r := by
  by_cases hsame : s.config = some c.name
  · have still : s.choosing c t = s := if_pos hsame
    rwa [still]
  · exact h.records (Status.log_choosing s t hsame) nofun

theorem observing (h : s.SilentSince r) (method : String) (jobs : List Job) (t : Instant) :
    (s.observing method jobs t).SilentSince r := by
  rcases s.log_observing t method jobs with hlog | ⟨result, error, hresult, hlog⟩
  · obtain ⟨entries, hold, hsilent⟩ := h
    exact ⟨entries, hlog.trans hold, hsilent⟩
  · refine h.records hlog ?_
    rcases hresult with ⟨rfl, -⟩ | rfl <;> exact nofun

theorem finalizes (h : s.SilentSince r) {result : Result} (hresult : result ≠ .jobDispatched)
    (t : Instant) (detail : String) (error : Option String) :
    (s.finalize t result detail error).SilentSince r :=
  h.records (Status.log_finalize s t result detail error) hresult

theorem selecting (h : s.SilentSince r) (method : String) (t : Instant) :
    (s.selecting method t).SilentSince r :=
  h.records (Status.log_selecting s t method) nofun

/-- **When a method is dispatched**, this is all that is said of a dispatch. -/
theorem dispatched (h : s.SilentSince r) (method job : String) (t : Instant) :
    ∃ entries, (s.dispatched method job t).log = r.log ++ entries ∧
      ∀ m name, Entry.dispatched m name ∈ entries → name = job := by
  obtain ⟨entries, hlog, hsilent⟩ := h
  refine ⟨entries ++ [.of (some method) .jobDispatched job], ?_, fun m name hmem => ?_⟩
  · rw [Status.log_dispatched, hlog, List.append_assoc]
  · rcases List.mem_append.mp hmem with hold | hnew
    · exact absurd hold (hsilent m name)
    · exact (Entry.of_eq_dispatched (List.mem_singleton.mp hnew).symm).2.symm

end Status.SilentSince

end NodeFencing
