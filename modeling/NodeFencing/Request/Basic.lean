import NodeFencing.Object.Resource

/-!
# Requests for fencing

A request names the node to be fenced.  Its status says how far it has come and holds a
log of everything that was done for it; entries are only ever added to the log.

## Main Definitions

* `Operation` — what is done to the node
* `Result` — the milestones of a request
* `Status` — how far a request has come
* `Status.record`, `Status.finalize` — add to the log, and end a request
* `Request` — a request
* `Request.validFrom?` — when a request begins to count
-/

namespace NodeFencing

/-- What is done to a node. -/
inductive Operation where
  | on
  | off
  | cycle
  deriving Repr, DecidableEq, Inhabited

namespace Operation

/-- The name of an operation. -/
def name : Operation → String
  | on => "On"
  | off => "Off"
  | cycle => "Cycle"

/-- The operation of a name. -/
def named? (name : String) : Option Operation :=
  [on, off, cycle].find? (·.name == name)

end Operation

/-- The milestones of a request.  The first three end it. -/
inductive Result where
  /-- The node is fenced. -/
  | success
  /-- No configuration is for the node. -/
  | noConfig
  /-- Every method was tried, and none has fenced the node. -/
  | givingUp
  | configSelected
  | methodSelected
  | jobDispatched
  | methodFailed
  | methodSucceeded
  deriving Repr, DecidableEq, Inhabited

namespace Result

/-- The name of a milestone. -/
def name : Result → String
  | success => "Success"
  | noConfig => "NoConfig"
  | givingUp => "GivingUp"
  | configSelected => "ConfigSelected"
  | methodSelected => "MethodSelected"
  | jobDispatched => "JobDispatched"
  | methodFailed => "MethodFailed"
  | methodSucceeded => "MethodSucceeded"

/-- The milestone of a name. -/
def named? (name : String) : Option Result :=
  [success, noConfig, givingUp, configSelected, methodSelected, jobDispatched, methodFailed,
    methodSucceeded].find? (·.name == name)

end Result

/-! ### Status -/

/-- An entry of the log. -/
structure Update where
  timestamp : String := ""
  /-- The method it is about, if any. -/
  method : Option String := none
  message : String := ""
  error : Option String := none
  deriving Repr, DecidableEq, Inhabited

/-- How far a request has come. -/
structure Status where
  /-- Whether the request has ended. -/
  complete : Bool := false
  /-- How it has ended. -/
  result : Option Result := none
  /-- The configuration that was chosen for it. -/
  config : Option String := none
  /-- The method in use. -/
  activeMethod : Option String := none
  /-- The job of this method, while its outcome is not known. -/
  activeJob : Option String := none
  updates : List Update := []
  deriving Repr, DecidableEq, Inhabited

namespace Status

/-- The message of an entry: the milestone, and a detail if there is one. -/
def message (result : Result) (detail : String) : String :=
  if detail.isEmpty then result.name else result.name ++ ": " ++ detail

/-- Add an entry to the log. -/
def record (s : Status) (now : Instant) (method : Option String) (result : Result)
    (detail : String := "") (error : Option String := none) : Status :=
  { s with updates := s.updates ++
      [{ timestamp := now.text, method, message := message result detail, error }] }

/-- End a request. -/
def finalize (s : Status) (now : Instant) (result : Result) (detail : String := "")
    (error : Option String := none) : Status :=
  { s with complete := true, result := some result, activeJob := none }.record
    now none result detail error

end Status

/-! ### Requests -/

/-- A request to fence a node. -/
structure Request where
  metadata : Meta := {}
  /-- The node to be fenced. -/
  target : String := ""
  /-- Who asks for it, and why. -/
  origin : Option String := none
  operation : Operation := .off
  /-- The time before which nothing is done. -/
  notBefore : Option String := none
  /-- What ran on the node when the request was made. -/
  affectedWorkloads : List String := []
  status : Option Status := none
  deriving Repr, DecidableEq, Inhabited

namespace Request

/-- The label that holds the target of a request. -/
def targetLabel : String := "fencing.clusterlabs.org/target"

/-- The name of a request. -/
def name (r : Request) : String :=
  r.metadata.nameOrBase

/-- Whether a request has ended. -/
def isComplete (r : Request) : Bool :=
  match r.status with
  | some status => status.complete
  | none => false

/-- The time before which nothing is done; none if there is no such time, or no valid one. -/
def gate? (r : Request) : Option Instant :=
  r.notBefore.bind Instant.read?

/-- When a request begins to count: at the time before which nothing is done, or else at its
creation. -/
def validFrom? (r : Request) : Option Instant :=
  r.gate? <|> r.metadata.creationTimestamp

end Request

end NodeFencing
