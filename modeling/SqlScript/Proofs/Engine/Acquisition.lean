import SqlScript.Proofs.Engine.Conduct

/-!
# Acquiring a session

A session that fits the target is kept.  Any other is released first, and opening a new one is tried
as often as the policy allows.
-/

namespace SqlScript

namespace Engine

namespace Slot

open Interruptible (Follows)

variable {scenario : Scenario} {machine : Machine} {target : Instance} {attempt tries : Nat}

theorem follows_close {turn : Interruptible Unit} {cut : Machine → Prop}
    (move : ∀ session, machine.held = some session →
      Move scenario machine (some (.call (scenario.backend.release session.number)))
        { machine with held := none })
    (stalls : (∃ call, (scenario.backend.closing call).outcome? = none) →
      machine.stage.Stalls scenario.backend)
    (follows_turn : Follows scenario { machine with held := none } turn
      (fun _ after => after = { machine with held := none }) cut) :
    Follows scenario machine (close scenario.backend turn)
      (fun _ after => after = { machine with held := none }) cut := by
  intro state accounts
  unfold close
  refine Interruptible.ensures_get_bind.mpr ?_
  rw [accounts.held_eq]
  cases held_eq : machine.held with
  | none =>
      have same : machine = { machine with held := none } := by
        rw [← held_eq]
      exact ⟨machine, rfl, accounts, same⟩
  | some session =>
      refine Interruptible.ensures_modify_bind.mpr ?_
      have released := move session held_eq
      have ledger_eq : { state.ledger with held := none } =
          { machine.toLedger with held := none } := by
        rw [accounts.ledger_eq]
      unfold Backend.release at released
      split
      · rename_i has_close
        rw [if_pos has_close] at released
        refine Interruptible.ensures_get_bind.mpr (Interruptible.ensures_record_bind.mpr
          (Interruptible.ensures_modify_bind.mpr ?_))
        refine Run.Follows.ensures (Interruptible.follows_bind (Interruptible.follows_await
          (fun _ => follows_turn) fun endless => stalls ⟨_, endless⟩) fun _ _ holds => ?_)
          (accounts.move released ?_ ?_ accounts.fits) rfl
        · exact Interruptible.follows_pure holds.1
        · exact Array.toList_push
        · exact ledger_eq
      · rename_i no_close
        rw [if_neg no_close] at released
        refine ⟨{ machine with held := none }, rfl, accounts.move released ?_ ?_ accounts.fits, rfl⟩
        · exact Array.toList_push
        · exact ledger_eq

/-- What opening a session leads to. -/
def Tried (scenario : Scenario) (target : Instance) (attempt tries : Nat) :
    Except SessionError Session → Machine → Prop
  | .error failure, machine =>
      machine.held = none ∧ ∃ call, machine.stage = .opening target attempt tries call ∧
        (scenario.backend.opening call).outcome? = some (.error failure)
  | .ok session, machine =>
      machine.stage = .opened target attempt tries session ∧
        session.target = target.batch.connectTarget

theorem follows_attempt (stage_eq : machine.stage = .acquiring target attempt tries)
    (held_eq : machine.held = none) (within : tries < scenario.policy.maxAttempts.toNat)
    (number : UInt32) :
    Follows scenario machine
      ((opening scenario.backend target.batch.connectTarget).attempt number)
      (Tried scenario target attempt (tries + 1))
      fun after => after.stage.Idles scenario.backend target := by
  intro state accounts
  have opening := Move.ask stage_eq held_eq within
  refine Interruptible.ensures_get_bind.mpr (Interruptible.ensures_record_bind.mpr
    (Interruptible.ensures_modify_bind.mpr ?_))
  rw [accounts.openings_eq]
  refine Run.Follows.ensures (Interruptible.follows_bind (Interruptible.follows_await
    (fun turns => Interruptible.follows_checkpoint (.opening turns)) id) ?_)
    (accounts.move opening ?_ ?_ ?_) rfl
  · rintro outcome _ ⟨rfl, outcome_eq⟩
    cases outcome with
    | error failure =>
        exact Interruptible.follows_pure ⟨held_eq, machine.openings, rfl, outcome_eq⟩
    | ok rows =>
        refine Interruptible.follows_bind (Interruptible.follows_lift
          (Run.follows_modify (.opened rfl outcome_eq) rfl (fun _ => (List.append_nil _).symm) ?_
            fun _ fits => fits)) ?_
        · intro state accounts
          exact congrArg (fun ledger => { ledger with sessions := ledger.sessions + 1 })
            accounts.ledger_eq
        · rintro _ _ rfl
          refine Interruptible.follows_get_bind fun state accounts => ?_
          rw [accounts.sessions_eq]
          exact Interruptible.follows_pure ⟨rfl, rfl⟩
  · exact Array.toList_push
  · exact congrArg (fun ledger => { ledger with openings := machine.openings + 1 })
      accounts.ledger_eq
  · have fits := accounts.fits
    rwa [stage_eq] at fits

theorem follows_observe_bind {α : Type} {wanted : Option String} {progress : Retry.Progress}
    {next : Interruptible α} {post : α → Machine → Prop} {cut : Machine → Prop}
    (rest : Follows scenario machine next post cut) :
    Follows scenario machine
      (do (opening scenario.backend wanted).observe progress; next) post cut := by
  have observed : Follows scenario machine
      ((opening scenario.backend wanted).observe progress) (fun _ after => after = machine) cut :=
    Interruptible.follows_pure rfl
  refine Interruptible.follows_bind observed ?_
  rintro _ _ rfl
  exact rest

/-- What retrying to open a session leads to. -/
def Sought (scenario : Scenario) (target : Instance) (attempt : Nat) :
    Option (Except SessionError Session) → Machine → Prop
  | none, machine =>
      scenario.policy.maxRetries + 1 = 0 ∧ machine.held = none ∧
        ∃ tries, machine.stage = .acquiring target attempt tries ∧ tries + 1 = UInt32.size
  | some (.error failure), machine =>
      ∃ tries, Tried scenario target attempt tries (.error failure) machine ∧
        scenario.policy.retryDelay? tries failure = none
  | some (.ok session), machine =>
      ∃ tries, Tried scenario target attempt tries (.ok session) machine

theorem follows_runFrom {tracker : Retry.Tracker}
    (stage_eq : machine.stage = .acquiring target attempt tracker.attempts.toNat)
    (held_eq : machine.held = none) (within : tracker.Within scenario.policy) :
    Follows scenario machine
      (scenario.policy.runFrom (opening scenario.backend target.batch.connectTarget) tracker)
      (Sought scenario target attempt) fun after => after.stage.Idles scenario.backend target := by
  induction remaining_eq : tracker.remaining using Nat.strongRecOn generalizing tracker machine with
  | ind remaining induction =>
      unfold Retry.Policy.runFrom
      split
      · rename_i full
        exact Interruptible.follows_pure ⟨Retry.Tracker.full_of_start? within full, held_eq, _,
          stage_eq, Retry.Tracker.start?_eq_none_iff.mp full⟩
      · rename_i started start_eq
        have tries_eq := Retry.Tracker.toNat_of_start? start_eq
        have numbered := Retry.Tracker.le_maxAttempts_of_start? within start_eq
        rw [tries_eq] at numbered
        refine follows_observe_bind (Interruptible.follows_bind
          (follows_attempt stage_eq held_eq numbered started.attempts) ?_)
        rw [← tries_eq]
        rintro outcome middle tried
        cases outcome with
        | ok session =>
            exact follows_observe_bind (Interruptible.follows_pure ⟨started.attempts.toNat, tried⟩)
        | error failure =>
            obtain ⟨held_eq, call, stage_eq, outcome_eq⟩ := tried
            refine follows_observe_bind ?_
            cases decision : scenario.policy.afterFailure started.attempts failure with
            | retry delay =>
                have cut_here : middle.stage.Idles scenario.backend target := by
                  rw [stage_eq]
                  exact .refused outcome_eq
                refine follows_observe_bind (Interruptible.follows_bind
                  (Interruptible.follows_checkpoint cut_here) ?_)
                rintro _ _ rfl
                have move := Move.reopen stage_eq outcome_eq (Retry.Policy.retry_iff.mp decision)
                have shorter := Retry.Tracker.remaining_of_start? start_eq
                refine Run.Follows.silent move rfl rfl ?_ (induction _ (remaining_eq ▸ shorter) rfl
                  held_eq (Retry.Tracker.within_of_retry decision) rfl)
                rw [stage_eq]
                exact fun _ => id
            | giveUp exhausted =>
                have tried : Tried scenario target attempt started.attempts.toNat
                    (.error failure) middle := ⟨held_eq, call, stage_eq, outcome_eq⟩
                have given_up := Retry.Policy.retryDelay?_of_giveUp decision
                cases exhausted with
                | true =>
                    exact follows_observe_bind (Interruptible.follows_pure ⟨_, tried, given_up⟩)
                | false => exact Interruptible.follows_pure ⟨_, tried, given_up⟩

/-- What acquiring a session leads to. -/
def Acquired (scenario : Scenario) (target : Instance) (attempt : Nat) :
    Except SessionError Unit → Machine → Prop
  | .error failure, machine => Sought scenario target attempt (some (.error failure)) machine
  | .ok (), machine =>
      ∃ tries session, machine.stage = .acquiring target attempt tries ∧
        machine.held = some session ∧ session.target = target.batch.connectTarget

theorem follows_acquire (stage_eq : machine.stage = .acquiring target attempt 0) :
    Follows scenario machine
      (acquire scenario.policy scenario.backend target.batch.connectTarget)
      (Acquired scenario target attempt)
      fun after => after.stage.Idles scenario.backend target := by
  have cut_here : machine.stage.Idles scenario.backend target := by
    rw [stage_eq]
    exact .acquiring
  refine Interruptible.follows_bind (Interruptible.follows_checkpoint cut_here) ?_
  rintro _ _ rfl
  refine Interruptible.follows_get_bind fun state accounts => ?_
  rw [accounts.held_eq]
  dsimp only
  split
  · rename_i fitting
    obtain ⟨session, held_eq, target_eq⟩ := (Option.any_eq_true _ _).mp fitting
    exact Interruptible.follows_pure ⟨0, session, stage_eq, held_eq, by simpa using target_eq⟩
  · rename_i unfit
    refine Interruptible.follows_bind (follows_close ?_ ?_
      (Interruptible.follows_checkpoint cut_here)) ?_
    · intro session held_eq
      refine .replace stage_eq held_eq fun target_eq => unfit ?_
      simp [held_eq, target_eq]
    · rw [stage_eq]
      exact id
    rintro _ _ rfl
    refine Interruptible.follows_bind
      (follows_runFrom stage_eq rfl (Retry.Tracker.within_start scenario.policy)) ?_
    rintro result sought_machine sought
    cases result with
    | none =>
        obtain ⟨overflows, held_eq, tries, stage_eq, full⟩ := sought
        exact Interruptible.follows_abandon
          ⟨overflows, target, attempt, tries, stage_eq, .inr ⟨held_eq, full⟩⟩
    | some outcome =>
        cases outcome with
        | error failure => exact Interruptible.follows_pure sought
        | ok session =>
            obtain ⟨tries, stage_eq, target_eq⟩ := sought
            refine Interruptible.follows_bind (Interruptible.follows_lift (Run.follows_modify
              (.keep stage_eq) rfl (fun _ => (List.append_nil _).symm) ?_ ?_)) ?_
            · intro state accounts
              exact congrArg (fun ledger => { ledger with held := some session })
                accounts.ledger_eq
            · intro state
              rw [stage_eq]
              exact id
            · rintro _ _ rfl
              exact Interruptible.follows_pure ⟨tries, session, rfl, rfl, target_eq⟩

end Slot

end Engine
end SqlScript
