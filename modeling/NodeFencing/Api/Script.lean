import NodeFencing.Api.Message

/-!
# Replies that are known beforehand

A script answers calls by replies that are known beforehand, whatever the calls are.

## Main Definitions

* `Api.Script` — the replies to come, and the calls so far
* `Api.Script.answer?` — answer a call
-/

namespace NodeFencing.Api

/-- The replies to come, and the calls so far. -/
structure Script where
  /-- The replies; where there is none, the call is never answered. -/
  replies : List (Option Reply) := []
  calls : List Call := []
  clock : Instant := ⟨0, 0⟩
  deriving Inhabited

/-- The reply when there is nobody to answer. -/
def unavailable : Reply :=
  Refusal.reply { code := 503, reason := "ServiceUnavailable" }

/-- Answer a call by the next reply.  When all replies are used up, nobody is there to answer. -/
def Script.answer? (c : Call) (s : Script) : Option Reply × Script :=
  match s.replies with
  | [] => (some unavailable, { s with calls := s.calls ++ [c] })
  | reply :: rest => (reply, { s with replies := rest, calls := s.calls ++ [c] })

/-- Hold a conversation as far as the replies go. -/
def Script.advance (s : Script) (p : Program Wire α) : Program.Stop Wire α × Script :=
  p.advance Script.answer? Script.clock s

/-- Hold a conversation for a time that is shorter than a limit. -/
def Script.runWithin (s : Script) (limit : Duration) (p : Program Wire α) :
    Option α × Duration × Script :=
  p.runWithin Script.answer? Script.clock limit {} s

end NodeFencing.Api
