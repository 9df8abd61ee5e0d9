import SqlScript.Engine.Progress
import SqlScript.Retry.Loop

/-!
# The session of a run

At most one session is held at a time.  It is used again for a batch with the same target; for
another target it is closed first, and a new one is opened as often as the policy allows.
-/

namespace SqlScript
namespace Engine
namespace Slot

/-- Close the session that is held; at each turn of the engine `turn` comes first. -/
def close (backend : Backend) (turn : Interruptible Unit) : Interruptible Unit := do
  match (← get).session with
  | none => return
  | some session =>
      modify fun state => { state with session := none }
      if backend.hasClose then
        let number := (← get).closings
        Run.record (.close session.number)
        modify fun state => { state with closings := state.closings + 1 }
        let _ ← Interruptible.await turn (backend.closing number)
      else
        Run.record (.discard session.number)

/-- Opening a session, as an operation to be retried. -/
def opening (backend : Backend) (target : Option String) :
    Retry.Operation Interruptible Session where
  attempt _ := do
    let number := (← get).openings
    Run.record (.openSession target)
    modify fun state => { state with openings := state.openings + 1 }
    match ← Interruptible.await Interruptible.checkpoint (backend.opening number) with
    | .error failure => return .error failure
    | .ok _ =>
        modify fun state => { state with sessions := state.sessions + 1 }
        return .ok { number := (← get).sessions, target }
  observe _ := return
  pause _ := Interruptible.checkpoint

/-- Make sure that a session for `target` is held. -/
def acquire (policy : Retry.Policy) (backend : Backend) (target : Option String) :
    Interruptible (Except SessionError Unit) := do
  Interruptible.checkpoint
  let held := (← get).session
  if held.any fun session => session.target == target then
    return .ok ()
  else
    close backend Interruptible.checkpoint
    match ← policy.run (opening backend target) with
    | none => Interruptible.abandon .uncounted
    | some (.error failure) => return .error failure
    | some (.ok session) =>
        modify fun state => { state with session := some session }
        return .ok ()

end Slot
end Engine
end SqlScript
