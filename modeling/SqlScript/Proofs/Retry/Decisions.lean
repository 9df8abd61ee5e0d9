import SqlScript.Retry.Loop

/-!
# Decisions of a retry policy

Whether an operation is tried again depends on the number of the attempt that failed and on its
error.  An operation whose outcomes are known beforehand tells what retrying it comes to: the final
outcome, how often it was attempted, and the waits in between.
-/

namespace SqlScript
namespace Retry

/-- A counter of thirty-two bits overflows behind its largest value only. -/
theorem overflows_iff {number : UInt32} : number + 1 = 0 ↔ number.toNat + 1 = UInt32.size := by
  have bound := number.toNat_lt
  rw [← UInt32.toNat_inj, UInt32.toNat_add]
  change (number.toNat + 1) % UInt32.size = 0 ↔ _
  change number.toNat < UInt32.size at bound
  constructor
  · intro wrapped
    refine Nat.le_antisymm bound (Nat.le_of_not_lt fun small => ?_)
    rw [Nat.mod_eq_of_lt small] at wrapped
    contradiction
  · intro full
    rw [full, Nat.mod_self]

/-- The first attempt and the retries are all counted, unless there is one too many to number. -/
theorem Policy.toNat_maxAttempts (policy : Policy) :
    policy.maxAttempts.toNat = min (policy.maxRetries.toNat + 1) (UInt32.size - 1) := by
  have bound : policy.maxRetries.toNat < UInt32.size := policy.maxRetries.toNat_lt
  unfold maxAttempts
  split
  · rename_i overflows
    have full := overflows_iff.mp overflows
    omega
  · rename_i numbered
    have not_full := mt overflows_iff.mpr numbered
    rw [UInt32.toNat_add]
    change (policy.maxRetries.toNat + 1) % UInt32.size = _
    rw [Nat.mod_eq_of_lt (by omega)]
    omega

/-- The delay after which an operation is tried again if attempt number `attempt` fails. -/
def Policy.retryDelay? (policy : Policy) (attempt : Nat) (failure : SessionError) : Option Delay :=
  if policy.isTransient failure ∧ attempt ≤ policy.maxRetries.toNat then
    some (policy.backoff.delay (.ofNat (attempt - 1)))
  else none

theorem Policy.retryDelay?_cancelled (policy : Policy) (attempt : Nat) :
    policy.retryDelay? attempt .cancelled = none := by
  simp [retryDelay?, isTransient]

theorem Policy.le_of_retryDelay? {policy : Policy} {attempt : Nat} {failure : SessionError}
    {delay : Delay} (delay_eq : policy.retryDelay? attempt failure = some delay) :
    attempt ≤ policy.maxRetries.toNat := by
  unfold retryDelay? at delay_eq
  split at delay_eq
  · rename_i allowed
    exact allowed.2
  · contradiction

theorem Policy.isTransient_of_retryDelay? {policy : Policy} {attempt : Nat}
    {failure : SessionError} {delay : Delay}
    (delay_eq : policy.retryDelay? attempt failure = some delay) :
    policy.isTransient failure = true := by
  unfold retryDelay? at delay_eq
  split at delay_eq
  · rename_i allowed
    exact allowed.1
  · contradiction

/-- An attempt that fails in passing is followed by another as long as retries are left. -/
theorem Policy.retryDelay?_of_left {policy : Policy} {failure : SessionError} {earlier : Nat}
    (passing : policy.isTransient failure = true) (left : earlier < policy.maxRetries.toNat) :
    policy.retryDelay? (earlier + 1) failure = some (policy.backoff.delay (.ofNat earlier)) := by
  rw [retryDelay?, if_pos ⟨passing, left⟩, Nat.add_sub_cancel]

theorem Policy.retry_iff {policy : Policy} {number : UInt32} {failure : SessionError}
    {delay : Delay} :
    policy.afterFailure number failure = .retry delay ↔
      policy.retryDelay? number.toNat failure = some delay := by
  have number_eq : number - min number 1 = .ofNat (number.toNat - 1) := by
    have bound := number.toNat_lt
    rw [show min number 1 = if number ≤ 1 then number else 1 from rfl]
    apply UInt32.toNat_inj.mp
    rw [UInt32.toNat_ofNat_of_lt' (by simp [UInt32.size]; omega)]
    split
    · rename_i least
      have least_toNat := UInt32.le_iff_toNat_le.mp least
      simp at least_toNat ⊢
      omega
    · rename_i more
      rw [UInt32.toNat_sub_of_le _ _ (UInt32.le_of_lt (UInt32.not_le.mp more))]
      rfl
  unfold afterFailure retryDelay?
  cases transient : policy.isTransient failure with
  | false => simp
  | true =>
      by_cases beyond : policy.maxRetries < number
      · have beyond_toNat := UInt32.lt_iff_toNat_lt.mp beyond
        simp [beyond, Nat.not_le.mpr beyond_toNat]
      · have within_toNat := UInt32.le_iff_toNat_le.mp (UInt32.not_lt.mp beyond)
        simp [beyond, within_toNat, number_eq]

theorem Policy.retryDelay?_of_giveUp {policy : Policy} {number : UInt32} {failure : SessionError}
    {exhausted : Bool} (decision : policy.afterFailure number failure = .giveUp exhausted) :
    policy.retryDelay? number.toNat failure = none := by
  cases delay_eq : policy.retryDelay? number.toNat failure with
  | none => rfl
  | some delay =>
      rw [Policy.retry_iff.mpr delay_eq] at decision
      contradiction

/-- An attempt is not started if only the largest number is behind it. -/
theorem Tracker.start?_eq_none_iff {tracker : Tracker} :
    tracker.start? = none ↔ tracker.attempts.toNat + 1 = UInt32.size := by
  simp [start?, overflows_iff]

theorem Tracker.toNat_of_start? {tracker started : Tracker}
    (start : tracker.start? = some started) :
    started.attempts.toNat = tracker.attempts.toNat + 1 := by
  unfold start? at start
  split at start
  · contradiction
  · rename_i numbered
    obtain rfl := Option.some.inj start
    have bound : tracker.attempts.toNat < UInt32.size := tracker.attempts.toNat_lt
    have not_full := mt overflows_iff.mpr numbered
    change (tracker.attempts + 1).toNat = _
    rw [UInt32.toNat_add]
    change (tracker.attempts.toNat + 1) % UInt32.size = _
    exact Nat.mod_eq_of_lt (by omega)

/-- The policy allows another attempt after those in the tracker. -/
def Tracker.Within (tracker : Tracker) (policy : Policy) : Prop :=
  tracker.attempts ≤ policy.maxRetries

theorem Tracker.within_start (policy : Policy) : ({} : Tracker).Within policy :=
  UInt32.zero_le

theorem Tracker.within_of_retry {tracker : Tracker} {policy : Policy} {failure : SessionError}
    {delay : Delay} (retry : policy.afterFailure tracker.attempts failure = .retry delay) :
    (tracker.fail failure).Within policy := by
  unfold Policy.afterFailure at retry
  split at retry
  · contradiction
  · split at retry
    · contradiction
    · rename_i in_range
      exact UInt32.not_lt.mp in_range

theorem Tracker.full_of_start? {tracker : Tracker} {policy : Policy}
    (within : tracker.Within policy)
    (full : tracker.start? = none) : policy.maxRetries + 1 = 0 := by
  have attempts_eq := start?_eq_none_iff.mp full
  have within_toNat := UInt32.le_iff_toNat_le.mp within
  have bound : policy.maxRetries.toNat < UInt32.size := policy.maxRetries.toNat_lt
  exact overflows_iff.mpr (by omega)

/-- A policy that allows another attempt counts it, if it can be numbered. -/
theorem Tracker.le_maxAttempts_of_start? {tracker started : Tracker} {policy : Policy}
    (within : tracker.Within policy) (start : tracker.start? = some started) :
    started.attempts.toNat ≤ policy.maxAttempts.toNat := by
  have number_eq := toNat_of_start? start
  have within_toNat := UInt32.le_iff_toNat_le.mp within
  have bound : started.attempts.toNat < UInt32.size := started.attempts.toNat_lt
  rw [policy.toNat_maxAttempts]
  omega

theorem Tracker.start_of_within {policy : Policy} (tracker : Tracker)
    (limited : policy.maxRetries + 1 ≠ 0) (within : tracker.Within policy) :
    ∃ started, tracker.start? = some started :=
  Option.ne_none_iff_exists'.mp fun full => limited (full_of_start? within full)

/-- What retrying an operation came to, its outcome aside. -/
structure Log where
  attempts : Nat := 0
  waits : List Delay := []
  deriving DecidableEq, Repr, Inhabited

/-- The operation whose attempts have these outcomes, the first of them first.  Attempts and waits
are noted. -/
def rehearsal {α : Type} (outcomes : Nat → Except SessionError α) : Operation (StateM Log) α where
  attempt number := do
    modify fun log => { log with attempts := log.attempts + 1 }
    return outcomes (number.toNat - 1)
  observe _ := return
  pause delay := modify fun log => { log with waits := log.waits ++ [delay] }

/-- What one attempt of a rehearsal leads to. -/
theorem Policy.attempt_rehearsal {α : Type} (policy : Policy)
    (outcomes : Nat → Except SessionError α) {tracker started : Tracker} (log : Log)
    (start_eq : tracker.start? = some started) :
    (policy.runFrom (rehearsal outcomes) tracker).run log =
      match outcomes (started.attempts.toNat - 1) with
      | .ok value => (some (.ok value), { log with attempts := log.attempts + 1 })
      | .error failure =>
          match policy.afterFailure started.attempts failure with
          | .retry delay =>
              (policy.runFrom (rehearsal outcomes) (started.fail failure)).run
                { attempts := log.attempts + 1, waits := log.waits ++ [delay] }
          | .giveUp _ => (some (.error failure), { log with attempts := log.attempts + 1 }) := by
  rw [runFrom]
  split
  · rename_i full
    simp [full] at start_eq
  · rename_i started' start_eq'
    obtain rfl := Option.some.inj (start_eq'.symm.trans start_eq)
    cases outcome_eq : outcomes (started'.attempts.toNat - 1) with
    | ok value =>
        simp [rehearsal, outcome_eq]
        rfl
    | error failure =>
        cases decision : policy.afterFailure started'.attempts failure with
        | retry delay => simp [rehearsal, outcome_eq, decision]
        | giveUp exhausted =>
            simp [rehearsal, outcome_eq, decision]
            rfl

/-- After the waits in `done`, a rehearsal goes on for as long as the policy asks for the waits
`ahead`, and no longer if the attempt after them is the last. -/
theorem Policy.runFrom_rehearsal {α : Type} {policy : Policy}
    {outcomes : Nat → Except SessionError α} {done ahead : List Delay}
    {final : Except SessionError α} {tracker : Tracker} (limited : policy.maxRetries + 1 ≠ 0)
    (attempts_eq : tracker.attempts.toNat = done.length) (within : tracker.Within policy)
    (retried : ∀ number delay, ahead[number]? = some delay →
      ∃ failure, outcomes (done.length + number) = .error failure ∧
        policy.retryDelay? (done.length + number + 1) failure = some delay)
    (final_eq : outcomes (done.length + ahead.length) = final)
    (settled : ∀ failure, final = .error failure →
      policy.retryDelay? (done.length + ahead.length + 1) failure = none) :
    (policy.runFrom (rehearsal outcomes) tracker).run { attempts := done.length, waits := done } =
      (some final, { attempts := done.length + ahead.length + 1, waits := done ++ ahead }) := by
  induction ahead generalizing done tracker with
  | nil =>
      obtain ⟨started, start_eq⟩ := tracker.start_of_within limited within
      have number_eq := Tracker.toNat_of_start? start_eq
      rw [attempts_eq] at number_eq
      rw [List.length_nil, Nat.add_zero] at final_eq settled
      rw [policy.attempt_rehearsal outcomes _ start_eq, number_eq, Nat.add_sub_cancel, final_eq]
      cases final with
      | ok value => simp
      | error failure =>
          have given_up := settled failure rfl
          rw [← number_eq] at given_up
          cases decision : policy.afterFailure started.attempts failure with
          | retry delay =>
              rw [retry_iff.mp decision] at given_up
              contradiction
          | giveUp exhausted => simp [decision]
  | cons delay ahead induction =>
      obtain ⟨started, start_eq⟩ := tracker.start_of_within limited within
      have number_eq := Tracker.toNat_of_start? start_eq
      rw [attempts_eq] at number_eq
      obtain ⟨failure, outcome_eq, delay_eq⟩ := retried 0 delay rfl
      rw [Nat.add_zero] at outcome_eq delay_eq
      have decision : policy.afterFailure started.attempts failure = .retry delay := by
        rw [retry_iff, number_eq]
        exact delay_eq
      rw [policy.attempt_rehearsal outcomes _ start_eq, number_eq, Nat.add_sub_cancel, outcome_eq]
      dsimp only
      rw [decision]
      have length_eq : (done ++ [delay]).length = done.length + 1 := List.length_append
      have shifted (number : Nat) :
          (done ++ [delay]).length + number = done.length + (number + 1) := by
        rw [length_eq, Nat.add_assoc, Nat.add_comm 1]
      let log : Log :=
        { attempts := (done ++ [delay]).length + ahead.length + 1
          waits := (done ++ [delay]) ++ ahead }
      have rest : (policy.runFrom (rehearsal outcomes) (started.fail failure)).run
          { attempts := (done ++ [delay]).length, waits := done ++ [delay] } =
            (some final, log) := by
        apply induction
        · rw [length_eq]
          exact number_eq
        · exact Tracker.within_of_retry decision
        · intro number delay' delay_at
          rw [shifted]
          exact retried (number + 1) delay' delay_at
        · rw [shifted]
          exact final_eq
        · rw [shifted]
          exact settled
      have log_eq : log =
          { attempts := done.length + (delay :: ahead).length + 1
            waits := done ++ delay :: ahead } := by
        simp only [log, shifted, List.length_cons, List.append_assoc, List.singleton_append]
      rw [log_eq, length_eq] at rest
      exact rest

/-- A rehearsal waits for as long as the policy asks and ends with the outcome of the last
attempt. -/
theorem Policy.run_rehearsal {α : Type} {policy : Policy} {outcomes : Nat → Except SessionError α}
    {waits : List Delay} {final : Except SessionError α} (limited : policy.maxRetries + 1 ≠ 0)
    (retried : ∀ number delay, waits[number]? = some delay →
      ∃ failure, outcomes number = .error failure ∧
        policy.retryDelay? (number + 1) failure = some delay)
    (final_eq : outcomes waits.length = final)
    (settled : ∀ failure, final = .error failure →
      policy.retryDelay? (waits.length + 1) failure = none) :
    (policy.run (rehearsal outcomes)).run {} =
      (some final, { attempts := waits.length + 1, waits }) := by
  have run_eq := @Policy.runFrom_rehearsal α policy outcomes [] waits final {} limited rfl
    (Tracker.within_start policy) (by simpa using retried) (by simpa using final_eq)
    (by simpa using settled)
  simpa [run] using run_eq

end Retry
end SqlScript
