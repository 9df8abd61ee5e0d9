import SqlScript.Engine.Slot

/-!
# Running one batch

A batch is submitted until it succeeds, fails for good, or has used up its attempts.  Notices are
forwarded whenever the engine has a turn and when the call has ended.  A batch whose notices reached
the caller is not submitted again.
-/

namespace SqlScript
namespace Engine

/-- One of the times a batch is run. -/
structure Instance where
  batch : Batch
  /-- Which time it is, counted from one. -/
  repetition : Nat
  deriving DecidableEq, Repr, Inhabited

namespace Instance

/-- Where a server error belongs in the script: at the line it names, or at the start of the
batch. -/
def positionOf (target : Instance) (failure : ServerError) : Position :=
  (target.batch.positionOfLine? failure.line).getD target.batch.start

/-- The event that passes on a notice. -/
def eventOf (target : Instance) : Notice → Event
  | .message text => .message (some target.batch.index) text
  | .error failure =>
      .error target.batch.index target.repetition (.server failure (target.positionOf failure))

/-- Pass a notice on and keep it in the result. -/
def forward (target : Instance) (result : BatchResult) (notice : Notice) : Run BatchResult := do
  Run.emit (target.eventOf notice)
  return result.record notice

/-- What submitting a batch once came to. -/
structure Submission where
  /-- The end of the call, unless it was interrupted. -/
  outcome : Option (Except SessionError (Option Nat))
  result : BatchResult
  noticed : Bool

/-- Pass on the notices that wait in `queue`, then note how the call ended. -/
def conclude (target : Instance) (result : BatchResult) (noticed : Bool) (queue : List Notice)
    (outcome : Option (Except SessionError (Option Nat))) : Run Submission := do
  let result ← queue.foldlM target.forward result
  return { outcome, result, noticed := noticed || !queue.isEmpty }

/-- Wait for the batch to be run; notices wait in `queue` for the next turn of the engine. -/
def await (target : Instance) : Behavior → BatchResult → (noticed : Bool) → (queue : List Notice) →
    Run Submission
  | .finish outcome, result, noticed, queue => target.conclude result noticed queue (some outcome)
  | .stall, result, noticed, queue => do
      let submission ← target.conclude result noticed queue none
      if ← Run.look then return submission else throw .stalled
  | .yield next, result, noticed, queue => do
      let submission ← target.conclude result noticed queue none
      if ← Run.look then return submission
      else await target next submission.result submission.noticed []
  | .notify notice next, result, noticed, queue =>
      await target next result noticed (queue ++ [notice])
  | .cancel next, result, noticed, queue => do
      Run.requestCancel
      await target next result noticed queue
  | .dropReceiver next, result, noticed, queue => do
      Run.dropReceiver
      await target next result noticed queue

/-- Submit the batch once; a request to cancel the run that came before keeps it from starting. -/
def submit (backend : Backend) (target : Instance) (session : Session) (result : BatchResult) :
    Run Submission := do
  if ← Run.look then
    return { outcome := none, result, noticed := false }
  else
    let state ← get
    Run.record (.execute session.number target.batch.text)
    modify fun state => { state with executions := state.executions + 1 }
    target.await (backend.executing state.executions) result false []

/-- End the run on request.  A session whose batch may still be running is let go. -/
def cancel (target : Instance) : Run Unit := do
  if (← get).phase = .awaiting then
    Run.discardSession
  Run.enter .cancelled
  Run.emit (.scriptCancelled target.batch.index)

/-- End the run because the backend did what it must not do. -/
def failInternal {α : Type} (target : Instance) (message : String) : Run α := do
  let failure := RunError.internal message target.batch.index target.batch.span (← get).phase
  Run.discardSession
  Run.enter .halted
  Run.emit (.scriptHalted target.batch.index failure.message)
  throw (.failed failure)

/-- Report an error that ended the call. -/
def report (target : Instance) (result : BatchResult) : SessionError → Run BatchResult
  | .server failure => target.forward result (.error failure)
  | failure => do
      Run.emit (.error target.batch.index target.repetition (.session failure.message))
      return { result with
        connectionBroken := result.connectionBroken || failure.breaksConnection
        sessionFailure := some failure.message }

/-- The message that announces another attempt. -/
def retryMessage (delay : Retry.Delay) (failure : SessionError) : String :=
  "Transient failure, retrying batch in " ++ toString delay.millis.toNat ++ " ms: " ++
    failure.message

/-- Submit the batch until its result is settled; there is none if the run is cancelled. -/
def settle (policy : Retry.Policy) (backend : Backend) (target : Instance)
    (tracker : Retry.Tracker) (result : BatchResult) : Run (Option BatchResult) := do
  Run.enter .dispatching
  match ← (Slot.acquire policy backend target.batch.connectTarget).run with
  | none =>
      target.cancel
      return none
  | some (.error failure) =>
      Run.enter .halted
      Run.emit (.scriptHalted target.batch.index ("failed to open a session: " ++ failure.message))
      throw (.failed (.connection failure))
  | some (.ok ()) =>
      match _start : tracker.start? with
      | none => throw .uncounted
      | some started =>
          Run.enter .awaiting
          match (← get).session with
          | none => target.failInternal "no open session after acquisition"
          | some session =>
              let submission ← target.submit backend session result
              match submission.outcome with
              | none =>
                  target.cancel
                  return none
              | some (.ok rows) => return some { submission.result with rows }
              | some (.error .cancelled) =>
                  target.failInternal "backend cancelled a batch without a cancel request"
              | some (.error failure) =>
                  if failure.breaksConnection then
                    Run.discardSession
                  if submission.noticed then
                    return some (← target.report submission.result failure)
                  match policy.afterFailure started.attempts failure with
                  | .giveUp _ => return some (← target.report submission.result failure)
                  | .retry delay =>
                      Run.emit
                        (.message (some target.batch.index) (retryMessage delay failure))
                      if ← Run.look then
                        target.cancel
                        return none
                      settle policy backend target (started.fail failure) submission.result
  termination_by tracker.remaining
  decreasing_by
    rw [Retry.Tracker.remaining_fail]
    exact Retry.Tracker.remaining_of_start? _start

end Instance
end Engine
end SqlScript
