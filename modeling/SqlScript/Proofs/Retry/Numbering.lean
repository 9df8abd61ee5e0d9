import SqlScript.Proofs.Retry.Recital

/-!
# The numbers of attempts

A policy allows one attempt more than it retries, and attempts are counted with thirty-two bits.  If
a policy retries as often as can be counted, the last attempt that it allows has no number: an
operation that fails in passing with every number has none left to go on with.
-/

namespace SqlScript
namespace Retry
namespace Policy

variable {α : Type} {policy : Policy} {outcomes : Nat → Except SessionError α}
  {tracker started : Tracker} {failure : SessionError} {done count : Nat}
  {result : Option (Except SessionError α)}

/-- If every number may be followed by another attempt, only a lasting failure is given up. -/
theorem not_transient_of_giveUp {number : UInt32} {exhausted : Bool}
    (overflows : policy.maxRetries + 1 = 0)
    (decision : policy.afterFailure number failure = .giveUp exhausted) :
    policy.isTransient failure = false := by
  by_contra passing
  have bound : number.toNat < UInt32.size := number.toNat_lt
  have full := overflows_iff.mp overflows
  have within : ¬policy.maxRetries.toNat < number.toNat := by omega
  rw [afterFailure_of_transient (by simpa using passing), if_neg within] at decision
  contradiction

/-- Where no number is left, an operation has no result. -/
theorem runFrom_of_full {m : Type → Type} [Monad m] (operation : Operation m α)
    (full : tracker.start? = none) : policy.runFrom operation tracker = pure none := by
  rw [runFrom]
  split
  · rfl
  · rename_i start_eq
    rw [full] at start_eq
    contradiction

/-- An attempt that is not retried gives the operation its result. -/
theorem runFrom_of_unretried (start_eq : tracker.start? = some started)
    (unretried : ∀ failure delay, outcomes started.attempts.toNat = .error failure →
      policy.afterFailure started.attempts failure ≠ .retry delay) (steps : List Step) :
    ∃ more, (policy.runFrom (recital outcomes) tracker).run steps =
        (some (outcomes started.attempts.toNat), steps ++ more) ∧
      more.filterMap Step.call? = [started.attempts.toNat] := by
  rw [policy.attempt_recital outcomes steps start_eq]
  cases outcome_eq : outcomes started.attempts.toNat with
  | ok value => exact ⟨_, by simp only [List.append_assoc]; rfl, rfl⟩
  | error failure =>
      dsimp only
      cases decision : policy.afterFailure started.attempts failure with
      | retry delay => exact absurd decision (unretried failure delay outcome_eq)
      | giveUp exhausted =>
          cases exhausted <;> exact ⟨_, by simp only [List.append_assoc]; rfl, rfl⟩

/-- An attempt that is retried is followed by the others. -/
theorem runFrom_of_retried {delay : Delay} (start_eq : tracker.start? = some started)
    (outcome_eq : outcomes started.attempts.toNat = .error failure)
    (decision : policy.afterFailure started.attempts failure = .retry delay)
    (steps : List Step) :
    ∃ more, (policy.runFrom (recital outcomes) tracker).run steps =
        (policy.runFrom (recital outcomes) (started.fail failure)).run (steps ++ more) ∧
      more.filterMap Step.call? = [started.attempts.toNat] := by
  rw [policy.attempt_recital outcomes steps start_eq, outcome_eq]
  dsimp only
  rw [decision]
  exact ⟨_, by simp only [List.append_assoc]; rfl, rfl⟩

/-- What is known of the calls behind `done` attempts: their numbers go on from there and stay
within the attempts that the policy allows, and there is no result only if each of them fails in
passing and no number is left. -/
structure Numbers (policy : Policy) (outcomes : Nat → Except SessionError α) (done count : Nat)
    (result : Option (Except SessionError α)) (steps : List Step) : Prop where
  calls_eq : steps.filterMap Step.call? = List.range' (done + 1) count
  le_maxAttempts : done + count ≤ policy.maxAttempts.toNat
  none_iff : result = none ↔ policy.maxRetries + 1 = 0 ∧
    ∀ number, done < number → number < UInt32.size → ¬policy.Settles (outcomes number)
  full_of_none : result = none → done + count + 1 = UInt32.size

theorem numbers_of_full (attempts_eq : tracker.attempts.toNat = done)
    (within : tracker.Within policy) (full : tracker.start? = none) :
    policy.Numbers outcomes done 0 none [] := by
  have overflows := Tracker.full_of_start? within full
  have within_toNat := UInt32.le_iff_toNat_le.mp within
  rw [Tracker.start?_eq_none_iff, attempts_eq] at full
  refine ⟨rfl, ?_, ⟨fun _ => ⟨overflows, fun number behind numbered => ?_⟩, fun _ => rfl⟩,
    fun _ => full⟩
  · rw [policy.toNat_maxAttempts]
    omega
  · omega

theorem numbers_of_last {steps : List Step} (outcome : Except SessionError α)
    (number_eq : started.attempts.toNat = done + 1)
    (numbered : started.attempts.toNat ≤ policy.maxAttempts.toNat)
    (calls_eq : steps.filterMap Step.call? = [started.attempts.toNat])
    (final : policy.maxRetries + 1 = 0 → policy.Settles (outcomes started.attempts.toNat)) :
    policy.Numbers outcomes done 1 (some outcome) steps where
  calls_eq := by
    rw [calls_eq, number_eq]
    rfl
  le_maxAttempts := number_eq ▸ numbered
  none_iff := by
    refine iff_of_false nofun fun ⟨overflows, unsettled⟩ => ?_
    exact unsettled _ (by omega) started.attempts.toNat_lt (final overflows)
  full_of_none := nofun

/-- An attempt that fails in passing comes before those behind it. -/
theorem Numbers.cons {steps more : List Step}
    (numbers : policy.Numbers outcomes (done + 1) count result more)
    (calls_eq : steps.filterMap Step.call? = [done + 1])
    (unsettled : ¬policy.Settles (outcomes (done + 1))) :
    policy.Numbers outcomes done (count + 1) result (steps ++ more) where
  calls_eq := by
    rw [List.filterMap_append, calls_eq, numbers.calls_eq, List.range'_succ]
    rfl
  le_maxAttempts := by
    have within := numbers.le_maxAttempts
    omega
  none_iff := by
    refine numbers.none_iff.trans (and_congr_right fun _ => ⟨fun onward number behind => ?_, ?_⟩)
    · rcases Nat.eq_or_lt_of_le behind with rfl | further
      · exact fun _ => unsettled
      · exact onward number further
    · exact fun onward number behind => onward number (Nat.lt_of_succ_lt behind)
  full_of_none none_left := by
    have full := numbers.full_of_none none_left
    omega

theorem numbers_of_runFrom (attempts_eq : tracker.attempts.toNat = done)
    (within : tracker.Within policy) (outcomes : Nat → Except SessionError α)
    (steps : List Step) :
    ∃ count result more,
      (policy.runFrom (recital outcomes) tracker).run steps = (result, steps ++ more) ∧
        policy.Numbers outcomes done count result more := by
  -- The induction is on how many attempts can still be numbered.
  induction remaining_eq : tracker.remaining using Nat.strongRecOn
    generalizing tracker done steps with
  | ind remaining induction =>
      cases start_eq : tracker.start? with
      | none =>
          refine ⟨0, none, [], ?_, numbers_of_full attempts_eq within start_eq⟩
          rw [runFrom_of_full _ start_eq, List.append_nil]
          rfl
      | some started =>
          have number_eq := Tracker.toNat_of_start? start_eq
          have numbered := Tracker.le_maxAttempts_of_start? within start_eq
          rw [attempts_eq] at number_eq
          by_cases retried : ∃ failure delay, outcomes started.attempts.toNat = .error failure ∧
            policy.afterFailure started.attempts failure = .retry delay
          · obtain ⟨failure, delay, outcome_eq, decision⟩ := retried
            obtain ⟨begun, begun_eq, calls_eq⟩ :=
              runFrom_of_retried start_eq outcome_eq decision steps
            have shorter := Tracker.remaining_of_start? start_eq
            have counted : (started.fail failure).attempts.toNat = done + 1 := number_eq
            obtain ⟨count, result, more, run_eq, numbers⟩ := induction _ (remaining_eq ▸ shorter)
              counted (Tracker.within_of_retry decision) (steps ++ begun) rfl
            have unsettled : ¬policy.Settles (outcomes started.attempts.toNat) := by
              intro settles
              have passing := isTransient_of_retryDelay? (retry_iff.mp decision)
              rw [settles failure outcome_eq] at passing
              contradiction
            rw [number_eq] at calls_eq unsettled
            refine ⟨count + 1, result, begun ++ more, ?_, numbers.cons calls_eq unsettled⟩
            rw [begun_eq, run_eq, List.append_assoc]
          · obtain ⟨more, run_eq, calls_eq⟩ := runFrom_of_unretried start_eq
              (fun failure delay outcome_eq decision =>
                retried ⟨failure, delay, outcome_eq, decision⟩) steps
            refine ⟨1, _, more, run_eq, numbers_of_last _ number_eq numbered calls_eq ?_⟩
            intro overflows failure outcome_eq
            cases decision : policy.afterFailure started.attempts failure with
            | retry delay => exact absurd ⟨failure, delay, outcome_eq, decision⟩ retried
            | giveUp exhausted => exact not_transient_of_giveUp overflows decision

/-- The attempts of an operation are numbered from one on and stay within the attempts that the
policy allows.  There is no result exactly if the policy retries as often as can be counted and each
attempt that has a number fails in passing. -/
theorem numbers_of_run (policy : Policy) (outcomes : Nat → Except SessionError α) :
    ∃ count result steps, (policy.run (recital outcomes)).run [] = (result, steps) ∧
      policy.Numbers outcomes 0 count result steps :=
  numbers_of_runFrom rfl (Tracker.within_start policy) outcomes []

end Policy
end Retry
end SqlScript
