import SqlScript.Proofs.Engine.Budgets
import SqlScript.Proofs.Retry.Numbering

/-!
# The attempts of a run are numbered

Each instance numbers its submissions, and each acquisition of a session its openings.  A run starts
no attempt that has no number, so it makes no more of them than the policy counts.  It stops for
want of a number only if all attempts that have one failed in passing (`Path.full_of_uncounted`).
-/

namespace SqlScript
namespace Engine

open Trace

variable {scenario : Scenario} {machine machine' : Machine} {label : Option Entry}
  {trace : List Entry}

/-- No more was spent than the policy counts. -/
structure Trace.Spent.Counted (policy : Retry.Policy) (spent : Spent) : Prop where
  attempts_le : spent.attempts ≤ policy.maxAttempts.toNat
  tries_le : spent.tries ≤ policy.maxAttempts.toNat

theorem Trace.Spent.counted_nothing (policy : Retry.Policy) : ({} : Spent).Counted policy :=
  ⟨Nat.zero_le _, Nat.zero_le _⟩

/-- One move starts no attempt that is not counted. -/
theorem Move.counted (move : Move scenario machine label machine')
    (spends : machine.stage.Spends scenario.policy.maxRetries.toNat (spent trace))
    (counted : (spent trace).Counted scenario.policy) :
    (spent (trace ++ label.toList)).Counted scenario.policy := by
  cases move with
  | start =>
      rw [Option.toList_some, spent_of_started]
      exact Spent.counted_nothing _
  | complete =>
      rw [Option.toList_some, spent_of_completed]
      exact ⟨Nat.zero_le _, counted.tries_le⟩
  | ask stage_eq _ allowed =>
      rw [stage_eq] at spends
      obtain ⟨-, -, rfl⟩ := spends
      rw [Option.toList_some, spent_of_open]
      exact ⟨counted.attempts_le, allowed⟩
  | submit stage_eq _ _ allowed =>
      rw [stage_eq] at spends
      obtain ⟨rfl, -⟩ := spends
      rw [Option.toList_some, spent_of_execute]
      exact ⟨allowed, Nat.zero_le _⟩
  | replace | release =>
      rw [spent_of_free (by simp [Backend.isFree_release])]
      exact counted
  | forward =>
      rw [spent_of_free (by simp [Instance.isFree_eventOf])]
      exact counted
  | report =>
      rw [spent_of_free (by simp [Instance.isFree_failureEvent])]
      exact counted
  | _ =>
      rw [spent_of_free (by simp [Entry.isFree])]
      exact counted

theorem Path.counted (path : Path scenario (.start scenario.script) trace machine) :
    (spent trace).Counted scenario.policy := by
  induction path with
  | nil => exact Spent.counted_nothing _
  | snoc path move induction => exact move.counted path.spends.2 induction

/-- The call fails in passing. -/
def Behavior.Falters (policy : Retry.Policy) (behavior : Behavior) : Prop :=
  ∃ failure, behavior.outcome? = some (.error failure) ∧ policy.isTransient failure = true

/-- The openings that an acquisition has counted so far have failed in passing, the one at hand
aside. -/
def Machine.Strives (scenario : Scenario) (machine : Machine) : Prop :=
  match machine.stage with
  | .acquiring target _ tries =>
      (machine.held = none → ∀ call < machine.openings, machine.openings ≤ call + tries →
        (scenario.backend.opening call).Falters scenario.policy) ∧
      ∀ session, machine.held = some session →
        tries = 0 ∨ session.target = target.batch.connectTarget
  | .opening _ _ tries call =>
      machine.held = none ∧ call + 1 = machine.openings ∧
        ∀ earlier < call, call < earlier + tries →
          (scenario.backend.opening earlier).Falters scenario.policy
  | .opened target _ _ session => session.target = target.batch.connectTarget
  | _ => True

/-- At first no opening is counted. -/
theorem Machine.strives_at_first {target : Instance} {attempt : Nat}
    (stage_eq : machine.stage = .acquiring target attempt 0) : machine.Strives scenario := by
  rw [Machine.Strives, stage_eq]
  refine ⟨fun _ call earlier later => ?_, fun _ _ => .inl rfl⟩
  exact absurd later (Nat.not_le.mpr earlier)

theorem Move.strives (move : Move scenario machine label machine')
    (strives : machine.Strives scenario) : machine'.Strives scenario := by
  cases move with
  | seek | again => exact Machine.strives_at_first rfl
  | @replace target attempt tries session stage_eq held_eq unfit =>
      rw [Machine.Strives, stage_eq] at strives
      obtain rfl := (strives.2 session held_eq).resolve_right unfit
      exact Machine.strives_at_first stage_eq
  | @ask target attempt tries stage_eq held_eq =>
      rw [Machine.Strives, stage_eq] at strives
      refine ⟨held_eq, rfl, fun earlier before counted => ?_⟩
      exact strives.1 held_eq earlier before (Nat.le_of_lt_succ counted)
  | @reopen target attempt tries call failure delay stage_eq outcome_eq delay_eq =>
      rw [Machine.Strives, stage_eq] at strives
      obtain ⟨held_eq, last_eq, earlier_falter⟩ := strives
      have last_falters : (scenario.backend.opening call).Falters scenario.policy :=
        ⟨failure, outcome_eq, Retry.Policy.isTransient_of_retryDelay? delay_eq⟩
      refine ⟨fun _ => ?_, fun session held => ?_⟩
      · change ∀ counted < machine.openings, machine.openings ≤ counted + tries → _
        rw [← last_eq]
        intro counted before within
        rcases Nat.lt_succ_iff_lt_or_eq.mp before with earlier | rfl
        · exact earlier_falter counted earlier within
        · exact last_falters
      · rw [held_eq] at held
        contradiction
  | opened => exact rfl
  | keep stage_eq =>
      rw [Machine.Strives, stage_eq] at strives
      refine ⟨nofun, ?_⟩
      rintro _ ⟨⟩
      exact .inr strives
  | discard stage_eq | release stage_eq =>
      rw [Machine.Strives, stage_eq]
      trivial
  | _ => trivial

theorem Path.strives (path : Path scenario (.start scenario.script) trace machine) :
    machine.Strives scenario := by
  induction path with
  | nil => trivial
  | snoc _ move induction => exact move.strives induction

/-- Where a session is sought for another attempt, those before have failed in passing. -/
theorem Path.submissions_falter {target : Instance} {attempt tried : Nat}
    (path : Path scenario (.start scenario.script) trace machine)
    (stage_eq : machine.stage = .acquiring target attempt tried) :
    ∀ call < (executed trace).length, (executed trace).length ≤ call + attempts trace →
      (scenario.backend.executing call).Falters scenario.policy := by
  have befits := path.befits
  rw [stage_eq] at befits
  obtain ⟨_, before, since, setbacks, submitted, told, story, ⟨⟩⟩ := befits
  have calls_eq : (executed since).length = setbacks.length := story.calls_eq
  have trace_eq : trace = (before ++ [.event target.started]) ++ since := by
    rw [story.trace_eq, List.append_assoc, List.singleton_append]
  have attempts_eq : attempts trace = setbacks.length := by
    rw [trace_eq, attempts_append story.inside, attempts_of_border rfl, calls_eq, Nat.zero_add]
  have executed_eq : (executed trace).length = (executed before).length + setbacks.length := by
    rw [trace_eq, executed_append, executed_append, List.length_append, List.length_append,
      calls_eq]
    rfl
  intro call earlier counted
  rw [executed_eq] at earlier counted
  rw [attempts_eq] at counted
  obtain ⟨number, rfl⟩ := Nat.exists_eq_add_of_le (show (executed before).length ≤ call by omega)
  have in_range : number < setbacks.length := by omega
  obtain ⟨-, outcome_eq, delay_eq⟩ :=
    story.forgiven number setbacks[number] (List.getElem?_eq_getElem in_range)
  exact ⟨_, outcome_eq, Retry.Policy.isTransient_of_retryDelay? delay_eq⟩

/-- Where a run stops for want of a number, the policy retries as often as can be counted, and the
instance or the acquisition has used up all numbers on calls that failed in passing. -/
theorem Path.full_of_uncounted (path : Path scenario (.start scenario.script) trace machine)
    (halts : machine.Halts scenario .uncounted) :
    let limit := scenario.policy.maxAttempts.toNat
    scenario.policy.maxRetries + 1 = 0 ∧
      ((attempts trace = limit ∧
          ∀ call < (executed trace).length, (executed trace).length ≤ call + limit →
            (scenario.backend.executing call).Falters scenario.policy) ∨
        (tries trace = limit ∧
          ∀ call < (wanted trace).length, (wanted trace).length ≤ call + limit →
            (scenario.backend.opening call).Falters scenario.policy)) := by
  obtain ⟨overflows, target, attempt, tried, stage_eq, full⟩ := halts
  intro limit
  have spends := path.spends.2
  rw [stage_eq] at spends
  have attempt_eq : attempts trace + 1 = attempt := spends.1
  have tries_eq : tries trace = tried := spends.2.2
  have limit_eq : limit + 1 = UInt32.size := by
    have largest := Retry.overflows_iff.mp overflows
    have maxAttempts_eq := scenario.policy.toNat_maxAttempts
    rw [largest] at maxAttempts_eq
    omega
  refine ⟨overflows, ?_⟩
  rcases full with full | ⟨held_eq, full⟩
  · have attempts_eq : attempts trace = limit := by omega
    exact .inl ⟨attempts_eq, attempts_eq ▸ path.submissions_falter stage_eq⟩
  · have strives := path.strives
    rw [Machine.Strives, stage_eq] at strives
    obtain rfl : tried = limit := by omega
    refine .inr ⟨tries_eq, ?_⟩
    rw [path.custody.1.wanted_length]
    exact strives.1 held_eq

/-- The attempts of an operation are numbered from one on and stay within the attempts that the
policy allows.  It has no result exactly if the policy retries as often as can be counted and each
attempt that has a number fails in passing.  In a run, no instance submits its batch more often, and
no session is to be opened more often between two submissions; a run stops for want of a number only
with such a policy, when all numbers were used up by submissions of one batch, or by openings of one
session, that failed in passing. -/
theorem numbers_of_attempts {α : Type} (policy : Retry.Policy)
    (outcomes : Nat → Except SessionError α) (backend : Backend) (script : Script)
    (audience : Audience) :
    let limit := policy.maxAttempts.toNat
    let outcome := run policy backend script audience
    (∃ count result steps, (policy.run (Retry.recital outcomes)).run [] = (result, steps) ∧
      steps.filterMap Retry.Step.call? = List.range' 1 count ∧ count ≤ limit ∧
      (result = none ↔ policy.maxRetries + 1 = 0 ∧
        ∀ number, 1 ≤ number → number < UInt32.size →
          ∃ failure, outcomes number = .error failure ∧ policy.isTransient failure = true)) ∧
      (∀ front since back, outcome.trace = front ++ since ++ back →
        (∀ entry ∈ since, entry.borders = false) → (executed since).length ≤ limit) ∧
      (∀ front since back, outcome.trace = front ++ since ++ back →
        (∀ entry ∈ since, entry.begins = false) → (wanted since).length ≤ limit) ∧
      (outcome.result = .error .uncounted → policy.maxRetries + 1 = 0 ∧
        ((attempts outcome.trace = limit ∧ ∀ call < (executed outcome.trace).length,
            (executed outcome.trace).length ≤ call + limit →
              (backend.executing call).Falters policy) ∨
          (tries outcome.trace = limit ∧ ∀ call < (wanted outcome.trace).length,
            (wanted outcome.trace).length ≤ call + limit →
              (backend.opening call).Falters policy))) := by
  intro limit outcome
  obtain ⟨machine, path, ends⟩ := path_of_run policy backend script audience
  refine ⟨?_, ?_, ?_, ?_⟩
  · obtain ⟨count, result, steps, run_eq, numbers⟩ := policy.numbers_of_run outcomes
    refine ⟨count, result, steps, run_eq, numbers.calls_eq, ?_, ?_⟩
    · simpa using numbers.le_maxAttempts
    · have none_iff := numbers.none_iff
      simp only [Retry.Policy.Settles, not_forall, Bool.not_eq_false, exists_prop] at none_iff
      exact none_iff
  · intro front since back trace_eq inside
    obtain ⟨_, to_back⟩ := path.front trace_eq
    have attempts_le := to_back.counted.attempts_le
    rw [spent, attempts_append inside] at attempts_le
    exact Nat.le_of_add_left_le attempts_le
  · intro front since back trace_eq inside
    obtain ⟨_, to_back⟩ := path.front trace_eq
    have tries_le := to_back.counted.tries_le
    rw [spent, tries_append inside] at tries_le
    exact Nat.le_of_add_left_le tries_le
  · intro uncounted
    rw [show (run policy backend script audience).result = _ from uncounted] at ends
    exact path.full_of_uncounted ends

/-- With the largest number of retries, an operation that times out at each attempt is tried with
every number there is; behind the last one another attempt is due, for which no number is left. -/
theorem no_number_left_for_retry :
    let policy : Retry.Policy := { maxRetries := 4294967295, backoff := .usual }
    let timeout : SessionError := .timeout "slow"
    let outcomes : Nat → Except SessionError Unit := fun _ => .error timeout
    policy.maxAttempts = 4294967295 ∧
      (∃ delay, policy.afterFailure policy.maxAttempts timeout = .retry delay) ∧
      ({ attempts := policy.maxAttempts } : Retry.Tracker).start? = none ∧
      ∃ steps, (policy.run (Retry.recital outcomes)).run [] = (none, steps) ∧
        steps.filterMap Retry.Step.call? = List.range' 1 4294967295 := by
  intro policy timeout outcomes
  have overflows : policy.maxRetries + 1 = 0 := by decide +revert
  have largest : policy.maxAttempts = 4294967295 := if_pos overflows
  have full : ({ attempts := policy.maxAttempts } : Retry.Tracker).start? = none := by
    rw [largest]
    decide
  have within : ¬policy.maxRetries.toNat < policy.maxAttempts.toNat := by
    rw [largest]
    exact Nat.lt_irrefl _
  have due := @Retry.Policy.afterFailure_of_transient policy policy.maxAttempts timeout rfl
  rw [if_neg within] at due
  refine ⟨largest, ⟨_, due⟩, full, ?_⟩
  obtain ⟨count, result, steps, run_eq, numbers⟩ := policy.numbers_of_run outcomes
  have unsettled (number : Nat) : ¬policy.Settles (outcomes number) := fun settles =>
    Bool.false_ne_true (settles timeout rfl).symm
  obtain rfl := numbers.none_iff.mpr ⟨overflows, fun number _ _ => unsettled number⟩
  have used_up := numbers.full_of_none rfl
  obtain rfl : count = 4294967295 := by
    rw [UInt32.size] at used_up
    omega
  exact ⟨steps, run_eq, numbers.calls_eq⟩

end Engine
end SqlScript
