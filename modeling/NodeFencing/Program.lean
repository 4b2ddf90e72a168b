import NodeFencing.Time.Instant

/-!
# Programs with effects

Work on a cluster is a conversation: a call, an answer, and so on until there is a
result.  A program is such a conversation as data, with all answers left open.  What
answers the calls is chosen later, and need not be a cluster.

## Main Definitions

* `Interface` — the calls that may be made, each with the type of its answer
* `Program` — a conversation that ends with a result
* `Program.translate` — carry out every call by a program of its own
* `Program.run` — hold the conversation with something that answers every call
* `Program.advance` — go on until a pause, the end, or a call that is never answered
* `Program.runWithin` — hold the conversation for a limited time
-/

namespace NodeFencing

/-- The calls that may be made, each with the type of its answer. -/
structure Interface where
  Call : Type
  Answer : Call → Type

/-- A conversation that ends with a result.  Besides calls it may pause and read the clock. -/
inductive Program (I : Interface) (α : Type) where
  | done (a : α)
  | call (c : I.Call) (next : I.Answer c → Program I α)
  | pause (d : Duration) (next : Program I α)
  | clock (next : Instant → Program I α)

namespace Program

variable {I J : Interface} {α β : Type}

/-- Go on with the result of a program. -/
def bind : Program I α → (α → Program I β) → Program I β
  | done a, f => f a
  | call c next, f => call c fun answer => (next answer).bind f
  | pause d next, f => pause d (next.bind f)
  | clock next, f => clock fun now => (next now).bind f

instance : Monad (Program I) where
  pure := done
  bind := bind

/-- Make one call. -/
def ask (c : I.Call) : Program I (I.Answer c) :=
  call c done

/-- Read the clock. -/
def now : Program I Instant :=
  clock done

/-- Carry out every call by a program of its own. -/
def translate (f : (c : I.Call) → Program J (I.Answer c)) : Program I α → Program J α
  | done a => done a
  | call c next => (f c).bind fun answer => (next answer).translate f
  | pause d next => pause d (next.translate f)
  | clock next => clock fun now => (next now).translate f

/-! ### Surroundings -/

/-- What a program meets: something that answers every call, and a clock. -/
structure Surroundings (I : Interface) (σ : Type) where
  answer : (c : I.Call) → σ → I.Answer c × σ
  /-- The time. -/
  time : σ → Instant
  /-- Let time pass. -/
  wait : Duration → σ → σ

/-- Hold the conversation to its end. -/
def run (env : Surroundings I σ) : Program I α → σ → α × σ
  | done a, s => (a, s)
  | call c next, s =>
    let (answer, s) := env.answer c s
    (next answer).run env s
  | pause d next, s => next.run env (env.wait d s)
  | clock next, s => (next (env.time s)).run env s

/-! ### Interrupted conversations -/

/-- Where a conversation is interrupted. -/
inductive Stop (I : Interface) (α : Type) where
  /-- It has ended. -/
  | finished (a : α)
  /-- It pauses. -/
  | paused (d : Duration) (rest : Program I α)
  /-- Its last call is never answered. -/
  | stuck

/-- Go on until the end, the next pause, or a call that is not answered. -/
def advance (answer? : (c : I.Call) → σ → Option (I.Answer c) × σ) (time : σ → Instant) :
    Program I α → σ → Stop I α × σ
  | done a, s => (.finished a, s)
  | call c next, s =>
    match answer? c s with
    | (some answer, s) => (next answer).advance answer? time s
    | (none, s) => (.stuck, s)
  | pause d next, s => (.paused d next, s)
  | clock next, s => (next (time s)).advance answer? time s

/-- Hold the conversation for a time that is shorter than a limit.  Without a result, either a pause
lasts until the limit or a call is not answered. -/
def runWithin (answer? : (c : I.Call) → σ → Option (I.Answer c) × σ) (time : σ → Instant)
    (limit : Duration) : Program I α → Duration → σ → Option α × Duration × σ
  | done a, elapsed, s => (some a, elapsed, s)
  | call c next, elapsed, s =>
    match answer? c s with
    | (some answer, s) => (next answer).runWithin answer? time limit elapsed s
    | (none, s) => (none, limit, s)
  | pause d next, elapsed, s =>
    if elapsed + d < limit then next.runWithin answer? time limit (elapsed + d) s
    else (none, limit, s)
  | clock next, elapsed, s => (next (time s)).runWithin answer? time limit elapsed s

end Program

end NodeFencing
