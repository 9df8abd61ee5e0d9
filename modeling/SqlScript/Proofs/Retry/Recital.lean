import Mathlib.Order.Nat
import Mathlib.Tactic.Choose
import SqlScript.Proofs.Retry.Decisions

/-!
# The course of a retried operation

A recital is an operation whose outcomes are known beforehand and which notes every step: what the
observer is told, the attempts, and the waits.  Its last attempt is the first one whose outcome
settles the operation, or the last one that the policy allows.  All steps of a recital follow from
that (`Policy.steps_of_run`).
-/

namespace SqlScript
namespace Retry

/-- A step of an operation that is retried. -/
inductive Step where
  | told (progress : Progress)
  | called (number : UInt32)
  | waited (delay : Delay)
  deriving DecidableEq, Repr

/-- The number of the attempt that a step starts. -/
def Step.call? : Step → Option Nat
  | called number => some number.toNat
  | _ => none

/-- The operation whose attempt with a number has the outcome of this number. -/
def recital {α : Type} (outcomes : Nat → Except SessionError α) :
    Operation (StateM (List Step)) α where
  attempt number := do
    modify fun steps => steps ++ [.called number]
    return outcomes number.toNat
  observe progress := modify fun steps => steps ++ [.told progress]
  pause delay := modify fun steps => steps ++ [.waited delay]

namespace Policy

variable {α : Type} {policy : Policy} {outcomes : Nat → Except SessionError α}
  {tracker started : Tracker} {failures : Nat → SessionError} {done ahead number : Nat}

/-- After this outcome nothing is left to be tried. -/
def Settles (policy : Policy) (outcome : Except SessionError α) : Prop :=
  ∀ failure, outcome = .error failure → policy.isTransient failure = false

/-- The numbers with which an attempt cannot be followed by another. -/
def endings (policy : Policy) (outcomes : Nat → Except SessionError α) : Set Nat :=
  { number | 1 ≤ number ∧
    (number = policy.maxRetries.toNat + 1 ∨ policy.Settles (outcomes number)) }

/-- The steps with which an attempt begins. -/
def opening (policy : Policy) (number : Nat) : List Step :=
  [.told (.attempting (.ofNat number) (policy.maxRetries + 1)), .called (.ofNat number)]

/-- The steps of an attempt that is followed by another. -/
def setback (policy : Policy) (number : Nat) (failure : SessionError) : List Step :=
  let delay := policy.backoff.delay (.ofNat (number - 1))
  policy.opening number ++
    [.told (.failed (.ofNat number) failure.message true),
      .told (.backoff (.ofNat number) delay), .waited delay]

/-- The steps of the last attempt. -/
def ending (policy : Policy) (number : Nat) (outcome : Except SessionError α) : List Step :=
  policy.opening number ++
    match outcome with
    | .ok _ => [.told (.succeeded (.ofNat number))]
    | .error failure =>
        if policy.isTransient failure then
          [.told (.failed (.ofNat number) failure.message true), .told (.exhausted (.ofNat number))]
        else [.told (.failed (.ofNat number) failure.message false)]

/-- All attempts that a policy allows can be numbered, unless one more retry would overflow. -/
theorem succ_lt_of_limited (limited : policy.maxRetries + 1 ≠ 0) :
    policy.maxRetries.toNat + 1 < UInt32.size :=
  Nat.lt_of_le_of_ne policy.maxRetries.toNat_lt (mt overflows_iff.mpr limited)

theorem maxAttempts_of_limited (limited : policy.maxRetries + 1 ≠ 0) :
    policy.maxAttempts = policy.maxRetries + 1 :=
  if_neg limited

/-- What one attempt of a recital leads to. -/
theorem attempt_recital (policy : Policy) (outcomes : Nat → Except SessionError α)
    (steps : List Step) (start_eq : tracker.start? = some started) :
    (policy.runFrom (recital outcomes) tracker).run steps =
      let begun := steps ++
        [.told (.attempting started.attempts policy.maxAttempts), .called started.attempts]
      match outcomes started.attempts.toNat with
      | .ok value => (some (.ok value), begun ++ [.told (.succeeded started.attempts)])
      | .error failure =>
          let failed := begun ++
            [.told (.failed started.attempts failure.message (policy.isTransient failure))]
          match policy.afterFailure started.attempts failure with
          | .retry delay =>
              (policy.runFrom (recital outcomes) (started.fail failure)).run
                (failed ++ [.told (.backoff started.attempts delay), .waited delay])
          | .giveUp true => (some (.error failure), failed ++ [.told (.exhausted started.attempts)])
          | .giveUp false => (some (.error failure), failed) := by
  rw [runFrom]
  split
  · rename_i full
    simp [full] at start_eq
  · rename_i started' start_eq'
    obtain rfl := Option.some.inj (start_eq'.symm.trans start_eq)
    cases outcome_eq : outcomes started'.attempts.toNat with
    | ok value =>
        simp [recital, outcome_eq]
        rfl
    | error failure =>
        cases decision : policy.afterFailure started'.attempts failure with
        | retry delay => simp [recital, outcome_eq, decision]
        | giveUp exhausted =>
            cases exhausted <;> simp [recital, outcome_eq, decision] <;> rfl

/-- Behind a passing failure an attempt follows unless the number is the last one. -/
theorem afterFailure_of_transient {number : UInt32} {failure : SessionError}
    (passing : policy.isTransient failure = true) :
    policy.afterFailure number failure =
      if policy.maxRetries.toNat < number.toNat then .giveUp true
      else .retry (policy.backoff.delay (.ofNat (number.toNat - 1))) := by
  split
  · rename_i beyond
    simp [afterFailure, passing, UInt32.lt_iff_toNat_lt.mpr beyond]
  · rename_i within
    exact retry_iff.mpr (by simp [retryDelay?, passing, Nat.le_of_not_lt within])

/-- The attempt that is the last one ends the operation. -/
theorem runFrom_of_last (limited : policy.maxRetries + 1 ≠ 0)
    (start_eq : tracker.start? = some started)
    (last : started.attempts.toNat ∈ policy.endings outcomes) (steps : List Step) :
    (policy.runFrom (recital outcomes) tracker).run steps =
      (some (outcomes started.attempts.toNat),
        steps ++ policy.ending started.attempts.toNat (outcomes started.attempts.toNat)) := by
  rw [policy.attempt_recital outcomes steps start_eq]
  cases outcome_eq : outcomes started.attempts.toNat with
  | ok value => simp [ending, opening, maxAttempts_of_limited limited]
  | error failure =>
      cases passing : policy.isTransient failure with
      | false =>
          simp [afterFailure, ending, opening, passing, maxAttempts_of_limited limited]
      | true =>
          have last_eq : started.attempts.toNat = policy.maxRetries.toNat + 1 := by
            refine last.2.resolve_right fun settles => ?_
            rw [settles failure outcome_eq] at passing
            contradiction
          have beyond : policy.maxRetries.toNat < started.attempts.toNat := by omega
          simp [afterFailure_of_transient passing, beyond, ending, opening, passing,
            maxAttempts_of_limited limited]

/-- An attempt that is not the last one is followed by another. -/
theorem runFrom_of_setback (limited : policy.maxRetries + 1 ≠ 0) {failure : SessionError}
    (start_eq : tracker.start? = some started)
    (outcome_eq : outcomes started.attempts.toNat = .error failure)
    (passing : policy.isTransient failure = true)
    (allowed : started.attempts.toNat ≤ policy.maxRetries.toNat) (steps : List Step) :
    (started.fail failure).Within policy ∧
      (policy.runFrom (recital outcomes) tracker).run steps =
        (policy.runFrom (recital outcomes) (started.fail failure)).run
          (steps ++ policy.setback started.attempts.toNat failure) := by
  refine ⟨UInt32.le_iff_toNat_le.mpr allowed, ?_⟩
  rw [policy.attempt_recital outcomes steps start_eq, outcome_eq]
  simp [afterFailure_of_transient passing, Nat.not_lt.mpr allowed, setback, opening, passing,
    maxAttempts_of_limited limited]

/-- A recital that has come behind `done` attempts and fails in passing at the next `ahead` ones
ends with the attempt behind them if this one is the last. -/
theorem runFrom_recital (limited : policy.maxRetries + 1 ≠ 0)
    (attempts_eq : tracker.attempts.toNat = done) (within : tracker.Within policy)
    (failed : ∀ number, done < number → number ≤ done + ahead →
      outcomes number = .error (failures number) ∧
        policy.isTransient (failures number) = true ∧ number ≤ policy.maxRetries.toNat)
    (last : done + ahead + 1 ∈ policy.endings outcomes) (steps : List Step) :
    (policy.runFrom (recital outcomes) tracker).run steps =
      (some (outcomes (done + ahead + 1)),
        steps ++ ((List.range' (done + 1) ahead).flatMap
          fun number => policy.setback number (failures number)) ++
            policy.ending (done + ahead + 1) (outcomes (done + ahead + 1))) := by
  induction ahead generalizing done tracker steps with
  | zero =>
      obtain ⟨started, start_eq⟩ := tracker.start_of_within limited within
      have number_eq := Tracker.toNat_of_start? start_eq
      rw [attempts_eq] at number_eq
      rw [Nat.add_zero, ← number_eq] at last ⊢
      rw [runFrom_of_last limited start_eq last]
      simp
  | succ ahead ih =>
      obtain ⟨started, start_eq⟩ := tracker.start_of_within limited within
      have number_eq := Tracker.toNat_of_start? start_eq
      rw [attempts_eq] at number_eq
      obtain ⟨outcome_eq, passing, allowed⟩ := failed (done + 1) (by omega) (by omega)
      rw [← number_eq] at outcome_eq passing allowed
      obtain ⟨within', onward⟩ :=
        runFrom_of_setback limited start_eq outcome_eq passing allowed steps
      have counted : (started.fail (failures started.attempts.toNat)).attempts.toNat = done + 1 :=
        number_eq
      have shift : done + (ahead + 1) + 1 = done + 1 + ahead + 1 := by omega
      have rest := ih counted within'
        (fun number behind before => failed number (by omega) (by omega)) (shift ▸ last)
        (steps ++ policy.setback started.attempts.toNat (failures started.attempts.toNat))
      rw [onward, rest, number_eq, shift, List.range'_succ, List.flatMap_cons]
      simp only [List.append_assoc]

theorem call?_opening (numbered : number < UInt32.size) :
    (policy.opening number).filterMap Step.call? = [number] := by
  have number_eq : (UInt32.ofNat number).toNat = number := UInt32.toNat_ofNat_of_lt' numbered
  simp only [opening, List.filterMap_cons, Step.call?, number_eq, List.filterMap_nil]

theorem call?_setbacks (failures : Nat → SessionError) (first count : Nat)
    (numbered : first + count ≤ UInt32.size) :
    ((List.range' first count).flatMap fun number =>
      policy.setback number (failures number)).filterMap Step.call? = List.range' first count := by
  induction count generalizing first with
  | zero => rfl
  | succ count ih =>
      rw [List.range'_succ, List.flatMap_cons, List.filterMap_append, ih (first + 1) (by omega),
        setback, List.filterMap_append, call?_opening (by omega)]
      rfl

theorem call?_ending (outcome : Except SessionError α) (numbered : number < UInt32.size) :
    (policy.ending number outcome).filterMap Step.call? = [number] := by
  cases outcome with
  | ok value =>
      rw [ending, List.filterMap_append, call?_opening numbered]
      rfl
  | error failure =>
      rw [ending, List.filterMap_append, call?_opening numbered]
      split <;> rfl

/-- One attempt or another is the last. -/
theorem exists_last (policy : Policy) (outcomes : Nat → Except SessionError α) :
    ∃ last, IsLeast (policy.endings outcomes) last := by
  classical
  have some_ending : ∃ number, number ∈ policy.endings outcomes :=
    ⟨policy.maxRetries.toNat + 1, Nat.succ_pos _, .inl rfl⟩
  exact ⟨_, Nat.isLeast_find some_ending⟩

/-- An attempt before the last one fails in passing. -/
theorem failed_of_lt {last : Nat} (least : IsLeast (policy.endings outcomes) last)
    (positive : 1 ≤ number) (before : number < last) :
    ∃ failure, outcomes number = .error failure ∧ policy.isTransient failure = true ∧
      number ≤ policy.maxRetries.toNat := by
  have goes_on : number ∉ policy.endings outcomes := fun ends =>
    Nat.not_lt.mpr (least.2 ends) before
  have in_reach : last ≤ policy.maxRetries.toNat + 1 := least.2 ⟨Nat.succ_pos _, .inl rfl⟩
  have unsettled : ¬policy.Settles (outcomes number) := fun settles =>
    goes_on ⟨positive, .inr settles⟩
  simp only [Settles, not_forall, Bool.not_eq_false] at unsettled
  obtain ⟨failure, outcome_eq, passing⟩ := unsettled
  exact ⟨failure, outcome_eq, passing, by omega⟩

/-- An operation is attempted up to the first attempt that settles it, or up to the last one that
the policy allows.  Each attempt before it fails in passing, is told to be retried, and is followed
by the delay for its number; the outcome of the last one is the result. -/
theorem steps_of_run (limited : policy.maxRetries + 1 ≠ 0)
    (outcomes : Nat → Except SessionError α) :
    ∃ (last : Nat) (failures : Nat → SessionError) (steps : List Step),
      IsLeast (policy.endings outcomes) last ∧
        (∀ number, 1 ≤ number → number < last → outcomes number = .error (failures number) ∧
          policy.isTransient (failures number) = true) ∧
        (policy.run (recital outcomes)).run [] = (some (outcomes last), steps) ∧
        steps.filterMap Step.call? = List.range' 1 last ∧
        steps = ((List.range' 1 (last - 1)).flatMap
          fun number => policy.setback number (failures number)) ++
            policy.ending last (outcomes last) := by
  obtain ⟨last, least⟩ := policy.exists_last outcomes
  have positive : 1 ≤ last := least.1.1
  have in_reach : last ≤ policy.maxRetries.toNat + 1 := least.2 ⟨Nat.succ_pos _, .inl rfl⟩
  have numbered : last < UInt32.size := Nat.lt_of_le_of_lt in_reach (succ_lt_of_limited limited)
  choose! failures failed using fun number positive before =>
    @failed_of_lt α policy outcomes number last least positive before
  have last_eq : 0 + (last - 1) + 1 = last := by omega
  have run_eq := @runFrom_recital α policy outcomes {} failures 0 (last - 1) limited rfl
    (Tracker.within_start policy)
    (fun number positive before => failed number positive (by omega)) (last_eq.symm ▸ least.1) []
  rw [last_eq, List.nil_append] at run_eq
  refine ⟨last, failures, _, least, fun number positive before => ?_, run_eq, ?_, rfl⟩
  · obtain ⟨outcome_eq, passing, -⟩ := failed number positive before
    exact ⟨outcome_eq, passing⟩
  · rw [List.filterMap_append, call?_setbacks failures _ _ (by omega), call?_ending _ numbered]
    have split := @List.range'_concat 1 1 (last - 1)
    rw [Nat.sub_add_cancel positive, Nat.one_mul, Nat.add_sub_of_le positive] at split
    exact split.symm

/-- A deadlock at the first attempt is told to be retried, and the second attempt is the last. -/
theorem steps_of_deadlock :
    let policy : Policy := { maxRetries := 1, backoff := .usual }
    let deadlock : SessionError :=
      .server { number := 1205, severity := 13, message := "deadlock" }
    let outcomes : Nat → Except SessionError Unit := fun number =>
      if number = 1 then .error deadlock else .ok ()
    ∃ steps, (policy.run (recital outcomes)).run [] = (some (.ok ()), steps) ∧
      steps.filterMap Step.call? = [1, 2] ∧
      steps = policy.setback 1 deadlock ++ policy.ending 2 (outcomes 2) := by
  intro policy deadlock outcomes
  have limited : policy.maxRetries + 1 ≠ 0 := by decide
  have passing : policy.isTransient deadlock = true := by decide
  obtain ⟨last, failures, steps, least, failed, run_eq, calls_eq, steps_eq⟩ :=
    steps_of_run limited outcomes
  have settled : 2 ∈ policy.endings outcomes := ⟨by decide, .inl (by decide)⟩
  have last_eq : last = 2 := by
    refine Nat.le_antisymm (least.2 settled) (Nat.succ_le_of_lt ?_)
    refine Nat.lt_of_le_of_ne least.1.1 fun first => ?_
    rcases least.1.2 with full | settles
    · rw [← first] at full
      exact absurd full (by decide)
    · rw [settles deadlock (by rw [← first]; rfl)] at passing
      contradiction
  subst last_eq
  obtain ⟨failure_eq, -⟩ := failed 1 (Nat.le_refl 1) (by decide)
  obtain failure_eq : deadlock = failures 1 := Except.error.inj failure_eq
  refine ⟨steps, run_eq, calls_eq, ?_⟩
  rw [steps_eq, failure_eq]
  rfl

end Policy
end Retry
end SqlScript
