import NodeFencing.Object.Job
import NodeFencing.Object.Resource
import NodeFencing.Request.Codec

/-!
# Which request is worked on when

A request is worked on when it changes, when a job that it owns changes, and when a time
has come that was set for it.  Of several times the earliest counts.  A request that is
gone is not worked on.

## Main Definitions

* `Agenda` — the requests as they were reported, and when they are due
* `Agenda.schedule` — set a time
* `Agenda.report`, `Agenda.reportJob` — take in what a watch reports
* `Agenda.next?` — the next request that is due
-/

namespace NodeFencing

/-- What tells an object from others of its kind. -/
structure ObjectKey where
  inNamespace : Option String
  name : String
  deriving Repr, DecidableEq, Inhabited

/-- What tells an object from others of its kind. -/
def Meta.key (m : Meta) : ObjectKey where
  inNamespace := m.inNamespace
  name := m.nameOrBase

/-- The requests that own a job. -/
def Job.requestKeys (j : Job) : List ObjectKey :=
  let owners := (j.metadata.owners.getD []).filter fun o =>
    o.apiVersion == Request.kind.apiVersion && o.kind == Request.kind.name
  owners.map fun o => { inNamespace := j.metadata.inNamespace, name := o.name }

/-- The requests as they were reported last, and when they are due. -/
structure Agenda where
  requests : List Request := []
  /-- The requests of a list that is not complete. -/
  listed : List Request := []
  due : List (ObjectKey × Duration) := []
  deriving Repr, Inhabited

namespace Agenda

/-- A request as it was reported last.  One that belongs to no namespace is found from any. -/
def get? (a : Agenda) (key : ObjectKey) : Option Request :=
  a.requests.find? (·.metadata.key == key) <|>
    a.requests.find? (·.metadata.key == { key with inNamespace := none })

/-- Set a time for a request, unless an earlier one is set. -/
def schedule (a : Agenda) (key : ObjectKey) (time : Duration) : Agenda :=
  match a.due.lookup key with
  | none => { a with due := a.due ++ [(key, time)] }
  | some earlier =>
    if time < earlier then
      { a with due := a.due.map fun entry => if entry.1 == key then (key, time) else entry }
    else a

/-- Set a time for several requests. -/
def scheduleAll (a : Agenda) (keys : List ObjectKey) (time : Duration) : Agenda :=
  keys.foldl (fun a key => a.schedule key time) a

/-- Forget a request. -/
def forget (a : Agenda) (key : ObjectKey) : Agenda :=
  { a with requests := a.requests.filter (·.metadata.key != key) }

/-- Know a request. -/
def know (a : Agenda) (r : Request) : Agenda :=
  { a with requests := (a.forget r.metadata.key).requests ++ [r] }

/-- Take in a report about the requests. -/
def report (a : Agenda) (time : Duration) : Change Request → Agenda
  | .listing => { a with listed := [] }
  | .listed r => { a with listed := a.listed ++ [r] }
  | .settled =>
    let keys := a.listed.map fun r => r.metadata.key
    { a with requests := a.listed }.scheduleAll keys time
  | .applied r => (a.know r).schedule r.metadata.key time
  | .deleted r => a.forget r.metadata.key

/-- Take in a report about the jobs. -/
def reportJob (a : Agenda) (time : Duration) : Change Job → Agenda
  | .listing | .settled => a
  | .listed j | .applied j | .deleted j => a.scheduleAll j.requestKeys time

/-- The next request that is due, apart from some.  It is not due any more then. -/
def next? (a : Agenda) (time : Duration) (except : List ObjectKey) :
    Option (ObjectKey × Agenda) :=
  let entry? := a.due.find? fun (key, t) => decide (t ≤ time) && !except.contains key
  entry?.map fun (key, _) => (key, { a with due := a.due.filter (·.1 != key) })

/-- The times of the requests, apart from some. -/
def times (a : Agenda) (except : List ObjectKey) : List Duration :=
  (a.due.filter fun entry => !except.contains entry.1).map (·.2)

end Agenda

end NodeFencing
