import SqlScript.BatchResult
import SqlScript.SessionError

/-!
# Backends

What a backend does during a run is fixed beforehand: the behaviour of each call that opens a
session, runs a batch or closes a session, in the order in which the calls are made.  Whatever a
backend does in one run can be written down in this way.
-/

namespace SqlScript
namespace Engine

/-- What happens during one call, up to its end. -/
inductive Behavior where
  | finish (outcome : Except SessionError (Option Nat))
  | stall
  /-- The call gives the engine a turn. -/
  | yield (next : Behavior)
  | notify (notice : Notice) (next : Behavior)
  | cancel (next : Behavior)
  | dropReceiver (next : Behavior)
  deriving Inhabited

/-- The behaviour of every call that a run may make, by the number of earlier calls of its sort. -/
structure Backend where
  opening : Nat → Behavior
  /-- Calls that run a batch, on whichever session. -/
  executing : Nat → Behavior
  closing : Nat → Behavior
  /-- Whether sessions are closed by a call of their own; others are just discarded. -/
  hasClose : Bool := true
  deriving Inhabited

namespace Backend

/-- The behaviour of a call that succeeds at once. -/
def prompt : Behavior :=
  .finish (.ok none)

/-- The backend whose calls behave as listed, and promptly where the lists end. -/
def ofLists (openings executions closings : List Behavior) : Backend where
  opening call := openings.getD call prompt
  executing call := executions.getD call prompt
  closing call := closings.getD call prompt

/-- The backend with sessions that open promptly and have no call to close them. -/
def withPlainSessions (backend : Backend) : Backend :=
  { backend with opening := fun _ => prompt, hasClose := false }

end Backend

/-- A call made by the engine. -/
inductive Call where
  | openSession (target : Option String)
  | execute (session : Nat) (text : String)
  | close (session : Nat)
  /-- A session is let go without being closed. -/
  | discard (session : Nat)
  deriving DecidableEq, Repr, Inhabited

end Engine
end SqlScript
