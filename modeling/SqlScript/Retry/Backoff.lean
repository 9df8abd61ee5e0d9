/-!
# Waiting between attempts

Each delay is the one before it times a factor, up to a limit.  Delays are whole milliseconds; a
strategy may allow each to be spread over a quarter of its length in both directions.
-/

namespace SqlScript
namespace Retry

/-- How long to wait. -/
structure Delay where
  /-- The nominal length in milliseconds. -/
  millis : UInt64
  /-- Whether the wait may deviate from it by up to a quarter. -/
  spread : Bool
  deriving DecidableEq, Repr, Inhabited

/-- Multiply `result` by `base` raised to `exponent`, squaring the base for each binary digit. -/
def powerFrom (result base : Float) (exponent : Nat) : Float :=
  let result := if exponent % 2 = 1 then result * base else result
  if exponent / 2 = 0 then result else powerFrom result (base * base) (exponent / 2)
  termination_by exponent
  decreasing_by omega

/-- A number raised to a natural exponent. -/
def power (base : Float) (exponent : Nat) : Float :=
  powerFrom 1 base exponent

/-- Delays that grow by a factor up to a limit. -/
structure Backoff where
  /-- The first delay in milliseconds. -/
  initial : UInt64
  /-- The longest delay in milliseconds. -/
  limit : UInt64
  multiplier : Float := 2
  jitter : Bool := false
  initial_pos : 1 ≤ initial := by decide
  initial_le_limit : initial ≤ limit := by decide

namespace Backoff

/-- Delays from `initial` to `limit` milliseconds, the first raised to one millisecond and the
limit to the first delay. -/
def ofMillis (initial limit : UInt64) : Backoff where
  initial := max initial 1
  limit := max limit (max initial 1)
  initial_pos := by
    rw [UInt64.le_iff_toNat_le, show max initial 1 = if initial ≤ 1 then 1 else initial from rfl]
    split
    · exact Nat.le_refl _
    · rename_i more
      rw [UInt64.le_iff_toNat_le] at more
      exact Nat.le_of_lt (Nat.lt_of_not_le more)
  initial_le_limit := by
    generalize max initial 1 = first
    rw [UInt64.le_iff_toNat_le,
      show max limit first = if limit ≤ first then first else limit from rfl]
    split
    · exact Nat.le_refl _
    · rename_i more
      rw [UInt64.le_iff_toNat_le] at more
      exact Nat.le_of_lt (Nat.lt_of_not_le more)

/-- The usual delays: from a tenth of a second to half a minute. -/
def usual : Backoff where
  initial := 100
  limit := 30000

instance : Inhabited Backoff :=
  ⟨usual⟩

/-- The strategy with another factor; factors below one, and those that are no number, count as
one. -/
def withMultiplier (backoff : Backoff) (multiplier : Float) : Backoff :=
  { backoff with multiplier := if 1 < multiplier then multiplier else 1 }

/-- The strategy with delays spread or not. -/
def withJitter (backoff : Backoff) (jitter : Bool) : Backoff :=
  { backoff with jitter }

/-- The largest exponent to which the factor is raised. -/
def maxExponent : Nat :=
  2147483647

/-- The delay before a retry; the first retry has number zero. -/
def delay (backoff : Backoff) (retry : UInt32) : Delay where
  millis :=
    let nominal := backoff.initial.toFloat * power backoff.multiplier (min retry.toNat maxExponent)
    let limit := backoff.limit.toFloat
    (if nominal < limit then nominal else limit).toUInt64
  spread := backoff.jitter

end Backoff
end Retry
end SqlScript
