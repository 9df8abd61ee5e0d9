import SqlScript.Retry.Policy

/-!
# Retrying an operation

The operation is tried until it succeeds, fails for good, or has used up its attempts.  What trying,
observing and waiting mean is left to the monad in which the operation runs.
-/

namespace SqlScript
namespace Retry

/-- What happens to an operation while it is retried. -/
inductive Progress where
  | attempting (attempt maxAttempts : UInt32)
  | failed (attempt : UInt32) (message : String) (retryable : Bool)
  | backoff (attempt : UInt32) (delay : Delay)
  | succeeded (attemptsTaken : UInt32)
  | exhausted (totalAttempts : UInt32)
  deriving DecidableEq, Repr, Inhabited

/-- An operation and the means to observe its attempts and to wait between them. -/
structure Operation (m : Type → Type) (α : Type) where
  /-- Attempt the operation; attempts are numbered from one. -/
  attempt : UInt32 → m (Except SessionError α)
  observe : Progress → m Unit
  pause : Delay → m Unit

namespace Policy

/-- Continue an operation after the attempts in `tracker`.  There is no result if an attempt that
the policy allows cannot be numbered. -/
def runFrom {m : Type → Type} [Monad m] {α : Type} (policy : Policy) (operation : Operation m α)
    (tracker : Tracker) : m (Option (Except SessionError α)) :=
  match _start : tracker.start? with
  | none => pure none
  | some started => do
      let attempt := started.attempts
      operation.observe (.attempting attempt policy.maxAttempts)
      match ← operation.attempt attempt with
      | .ok value =>
          operation.observe (.succeeded attempt)
          return some (.ok value)
      | .error failure =>
          operation.observe (.failed attempt failure.message (policy.isTransient failure))
          match policy.afterFailure attempt failure with
          | .retry delay =>
              operation.observe (.backoff attempt delay)
              operation.pause delay
              runFrom policy operation (started.fail failure)
          | .giveUp exhausted =>
              if exhausted then
                operation.observe (.exhausted attempt)
              return some (.error failure)
  termination_by tracker.remaining
  decreasing_by
    rw [Tracker.remaining_fail]
    exact Tracker.remaining_of_start? _start

/-- Carry out an operation. -/
def run {m : Type → Type} [Monad m] {α : Type} (policy : Policy) (operation : Operation m α) :
    m (Option (Except SessionError α)) :=
  policy.runFrom operation {}

end Policy
end Retry
end SqlScript
