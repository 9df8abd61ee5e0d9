import SqlScript.Number.Nearest
import SqlScript.Retry.Backoff
import SqlScript.SessionError

/-!
# Retry policies

A policy says which errors may be gone at the next attempt, how often an operation is tried again,
and how long to wait in between.  A tracker counts the attempts of one operation; the counter has
thirty-two bits, and an attempt that it cannot number is not started.
-/

namespace SqlScript
namespace Retry

/-- Numbers of server errors that tell of a passing condition. -/
def usualTransientNumbers : List Nat :=
  [20, 64, 233, 615, 926, 1205, 4060, 4221, 10053, 10054, 10060, 10928, 10929, 40143, 40197, 40501,
    40540, 40613, 42108, 42109, 49918, 49919, 49920]

/-- A policy as it is written in a configuration. -/
structure Settings where
  /-- Retries after the first attempt. -/
  maxRetries : UInt32 := 3
  /-- The first delay in milliseconds. -/
  initialBackoff : UInt64 := 100
  /-- The longest delay in milliseconds. -/
  maxBackoff : UInt64 := 30000
  multiplier : Number.Binary := Number.nearest false 2 0
  jitter : Bool := false
  transientNumbers : List Nat := usualTransientNumbers
  deriving DecidableEq, Repr, Inhabited

/-- Which failures are retried, how often, and after which delays. -/
structure Policy where
  /-- Retries after the first attempt. -/
  maxRetries : UInt32
  backoff : Backoff
  transientNumbers : List Nat := usualTransientNumbers
  deriving Inhabited

namespace Policy

/-- The policy of a configuration. -/
def ofSettings (settings : Settings) : Policy where
  maxRetries := settings.maxRetries
  backoff :=
    ((Backoff.ofMillis settings.initialBackoff settings.maxBackoff).withMultiplier
      settings.multiplier.toFloat).withJitter settings.jitter
  transientNumbers := settings.transientNumbers

/-- The policy that never retries. -/
def noRetry : Policy where
  maxRetries := 0
  backoff := .usual

/-- The policy of a configuration that says nothing. -/
def usual : Policy :=
  ofSettings {}

/-- Attempts including the first, as far as they can be counted. -/
def maxAttempts (policy : Policy) : UInt32 :=
  if policy.maxRetries + 1 = 0 then policy.maxRetries else policy.maxRetries + 1

/-- Whether trying again may help.  An error raised by the server is judged by its number alone. -/
def isTransient (policy : Policy) : SessionError → Bool
  | .timeout _ | .connectionBroken _ => true
  | .transport fault _ => fault.isTransient
  | .server failure => policy.transientNumbers.contains failure.number
  | .connection _ | .cancelled | .other _ => false

end Policy

/-- What follows a failed attempt. -/
inductive Decision where
  | retry (delay : Delay)
  /-- Give up; `exhausted` says that only the number of attempts forbids another. -/
  | giveUp (exhausted : Bool)
  deriving DecidableEq, Repr, Inhabited

namespace Policy

/-- What follows if attempt number `attempt` fails with `failure`. -/
def afterFailure (policy : Policy) (attempt : UInt32) (failure : SessionError) : Decision :=
  if !policy.isTransient failure then .giveUp false
  else if policy.maxRetries < attempt then .giveUp true
  else .retry (policy.backoff.delay (attempt - min attempt 1))

end Policy

/-- The attempts of one operation so far. -/
structure Tracker where
  attempts : UInt32 := 0
  lastError : Option String := none
  deriving DecidableEq, Repr, Inhabited

namespace Tracker

/-- The tracker with one more attempt started, if the attempt can be numbered. -/
def start? (tracker : Tracker) : Option Tracker :=
  if tracker.attempts + 1 = 0 then none
  else some { tracker with attempts := tracker.attempts + 1 }

/-- The tracker after a failure. -/
def fail (tracker : Tracker) (failure : SessionError) : Tracker :=
  { tracker with lastError := some failure.message }

/-- How many attempts can still be numbered. -/
def remaining (tracker : Tracker) : Nat :=
  UInt32.size - 1 - tracker.attempts.toNat

@[simp]
theorem remaining_fail (tracker : Tracker) (failure : SessionError) :
    (tracker.fail failure).remaining = tracker.remaining :=
  rfl

theorem remaining_of_start? {tracker started : Tracker} (start : tracker.start? = some started) :
    started.remaining < tracker.remaining := by
  unfold start? at start
  split at start
  · contradiction
  · rename_i not_full
    cases start
    have bound := tracker.attempts.toNat_lt
    have not_max : tracker.attempts.toNat ≠ UInt32.size - 1 := by
      intro full
      apply not_full
      apply UInt32.toNat_inj.mp
      rw [UInt32.toNat_add, full]
      rfl
    simp only [remaining, UInt32.toNat_add, UInt32.reduceToNat, UInt32.size] at not_max ⊢
    omega

end Tracker
end Retry
end SqlScript
