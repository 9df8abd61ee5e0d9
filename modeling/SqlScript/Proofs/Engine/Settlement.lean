import SqlScript.Proofs.Engine.Acquisition

/-!
# Settling an instance

Submitting a batch forwards its notices in order.  After a failure the batch is submitted again or
its result is settled; an interrupted run lets the session go if a call may be in flight.
-/

namespace SqlScript
namespace Engine

namespace Behavior

/-- After the notices `before` the call goes on as `rest`. -/
structure Continues (whole : Behavior) (before : List Notice) (rest : Behavior) : Prop where
  outcome_eq : whole.outcome? = rest.outcome?
  notices_eq : whole.notices = before ++ rest.notices
  turns : ∀ sent ∈ rest.turns, before ++ sent ∈ whole.turns

theorem continues_refl (whole : Behavior) : whole.Continues [] whole where
  outcome_eq := rfl
  notices_eq := rfl
  turns _ member := member

theorem Continues.notify {whole next : Behavior} {before : List Notice} {notice : Notice}
    (continues : whole.Continues before (.notify notice next)) :
    whole.Continues (before ++ [notice]) next where
  outcome_eq := continues.outcome_eq
  notices_eq := by simpa [notices] using continues.notices_eq
  turns sent member := by
    have turn := continues.turns (notice :: sent) (List.mem_map.mpr ⟨sent, member, rfl⟩)
    simpa using turn

theorem Continues.yield {whole next : Behavior} {before : List Notice}
    (continues : whole.Continues before (.yield next)) :
    before ∈ whole.turns ∧ whole.Continues before next where
  left := by
    have turn := continues.turns [] List.mem_cons_self
    rwa [List.append_nil] at turn
  right :=
    { outcome_eq := continues.outcome_eq
      notices_eq := continues.notices_eq
      turns := fun sent member => continues.turns sent (List.mem_cons_of_mem _ member) }

end Behavior

namespace Instance

open Run (Follows)

variable {scenario : Scenario} {machine : Machine} {target : Instance} {attempt call : Nat}

/-- Notices that wait are passed on. -/
theorem follows_forward {sent queue : List Notice} {result : BatchResult}
    (stage_eq : machine.stage = .awaiting target attempt call sent)
    (sent_queue : sent ++ queue <+: (scenario.backend.executing call).notices) :
    Follows scenario machine (queue.foldlM target.forward result) fun value after =>
      value = queue.foldl BatchResult.record result ∧
        after = { machine with stage := .awaiting target attempt call (sent ++ queue) } := by
  induction queue generalizing machine sent result with
  | nil =>
      have same : machine = { machine with stage := .awaiting target attempt call sent } := by
        rw [← stage_eq]
      exact Run.follows_pure ⟨rfl, by rwa [List.append_nil]⟩
  | cons notice queue induction =>
      rw [List.append_cons] at sent_queue ⊢
      have move := Move.forward stage_eq ((List.prefix_append _ queue).trans sent_queue)
      have fits : ∀ phase, machine.stage.Fits phase →
          (Stage.awaiting target attempt call (sent ++ [notice])).Fits phase := by
        rw [stage_eq]
        exact fun _ => id
      have passed : Follows scenario machine (target.forward result notice) fun value after =>
          value = result.record notice ∧
            after = { machine with stage := .awaiting target attempt call (sent ++ [notice]) } :=
        Run.follows_emit_bind move rfl fits (Run.follows_pure ⟨rfl, rfl⟩)
      rw [List.foldlM_cons]
      refine Run.follows_bind passed ?_
      rintro _ _ ⟨rfl, rfl⟩
      exact induction rfl sent_queue

theorem follows_conclude {sent queue : List Notice}
    (stage_eq : machine.stage = .awaiting target attempt call sent)
    (sent_queue : sent ++ queue <+: (scenario.backend.executing call).notices)
    (outcome : Option (Except SessionError (Option Nat))) :
    Follows scenario machine
      (target.conclude (sent.foldl BatchResult.record {}) (!sent.isEmpty) queue outcome)
      fun submission after =>
        submission =
          { outcome
            result := (sent ++ queue).foldl BatchResult.record {}
            noticed := !(sent ++ queue).isEmpty } ∧
        after = { machine with stage := .awaiting target attempt call (sent ++ queue) } := by
  refine Run.follows_bind (follows_forward stage_eq sent_queue) ?_
  rintro _ _ ⟨rfl, rfl⟩
  refine Run.follows_pure ⟨?_, rfl⟩
  have noticed_eq : (!sent.isEmpty || !queue.isEmpty) = !(sent ++ queue).isEmpty := by
    cases sent <;> rfl
  rw [List.foldl_append, noticed_eq]

/-- What submitting a batch leads to. -/
def Submitted (scenario : Scenario) (target : Instance) (attempt : Nat) (submission : Submission)
    (machine : Machine) : Prop :=
  match submission.outcome with
  | none => machine.stage.Waits scenario.backend target
  | some outcome =>
      ∃ call, machine.stage =
          .awaiting target attempt call (scenario.backend.executing call).notices ∧
        (scenario.backend.executing call).outcome? = some outcome ∧
        submission.result =
          (scenario.backend.executing call).notices.foldl BatchResult.record {} ∧
        submission.noticed = !(scenario.backend.executing call).notices.isEmpty

theorem follows_await {behavior : Behavior} {sent queue : List Notice}
    (stage_eq : machine.stage = .awaiting target attempt call sent)
    (continues : (scenario.backend.executing call).Continues (sent ++ queue) behavior) :
    Follows scenario machine
      (target.await behavior (sent.foldl BatchResult.record {}) (!sent.isEmpty) queue)
      (Submitted scenario target attempt) := by
  have sent_queue : sent ++ queue <+: (scenario.backend.executing call).notices :=
    ⟨behavior.notices, continues.notices_eq.symm⟩
  induction behavior generalizing machine sent queue with
  | finish outcome =>
      refine (follows_conclude stage_eq sent_queue (some outcome)).mono ?_
      rintro _ _ ⟨rfl, rfl⟩
      have all_sent : sent ++ queue = (scenario.backend.executing call).notices := by
        rw [continues.notices_eq]
        exact (List.append_nil _).symm
      refine ⟨call, ?_, continues.outcome_eq, ?_, ?_⟩
      · rw [all_sent]
      · rw [all_sent]
      · rw [all_sent]
  | stall =>
      refine Run.follows_bind (follows_conclude stage_eq sent_queue none) ?_
      rintro _ _ ⟨rfl, rfl⟩
      refine Run.follows_bind Run.follows_look ?_
      rintro cancelled _ rfl
      cases cancelled with
      | true =>
          have turn := continues.turns [] List.mem_cons_self
          rw [List.append_nil] at turn
          exact Run.follows_pure (.awaiting turn)
      | false => exact Run.follows_throw continues.outcome_eq
  | yield next induction =>
      obtain ⟨turn, continues⟩ := continues.yield
      refine Run.follows_bind (follows_conclude stage_eq sent_queue none) ?_
      rintro _ _ ⟨rfl, rfl⟩
      refine Run.follows_bind Run.follows_look ?_
      rintro cancelled _ rfl
      cases cancelled with
      | true => exact Run.follows_pure (.awaiting turn)
      | false =>
          rw [← List.append_nil (sent ++ queue)] at continues sent_queue
          exact induction rfl continues sent_queue
  | notify notice next induction =>
      have continues := continues.notify
      rw [List.append_assoc] at continues
      exact induction stage_eq continues ⟨next.notices, continues.notices_eq.symm⟩
  | cancel next induction =>
      refine Run.follows_bind Run.follows_requestCancel ?_
      rintro _ _ rfl
      exact induction stage_eq ⟨continues.outcome_eq, continues.notices_eq, continues.turns⟩
        sent_queue
  | dropReceiver next induction =>
      refine Run.follows_bind Run.follows_dropReceiver ?_
      rintro _ _ rfl
      exact induction stage_eq ⟨continues.outcome_eq, continues.notices_eq, continues.turns⟩
        sent_queue

theorem follows_submit {session : Session} (stage_eq : machine.stage = .holding target attempt)
    (held_eq : machine.held = some session)
    (target_eq : session.target = target.batch.connectTarget)
    (numbered : attempt ≤ scenario.policy.maxAttempts.toNat) :
    Follows scenario machine (target.submit scenario.backend session {})
      (Submitted scenario target attempt) := by
  have waits : machine.stage.Waits scenario.backend target := by
    rw [stage_eq]
    exact .holding
  refine Run.follows_bind Run.follows_look ?_
  rintro cancelled machine rfl
  cases cancelled with
  | true => exact Run.follows_pure waits
  | false =>
      refine Run.follows_get_bind fun state accounts => ?_
      rw [accounts.executions_eq]
      have continues : (scenario.backend.executing machine.executions).Continues ([] ++ []) _ :=
        Behavior.continues_refl _
      refine Run.follows_call_bind (.submit stage_eq held_eq target_eq numbered) rfl (fun _ => rfl)
        ?_ ?_ (follows_await rfl continues)
      · intro state ledger_eq
        exact congrArg (fun ledger => { ledger with executions := ledger.executions + 1 }) ledger_eq
      · intro state
        rw [stage_eq]
        exact id

theorem follows_leaving (stage_eq : machine.stage = .leaving target) :
    Follows scenario machine (do
      Run.enter .cancelled
      Run.emit (.scriptCancelled target.batch.index)) fun _ after =>
        after.stage = .ending .cancelled := by
  refine Run.follows_enter_bind (by rw [stage_eq]; trivial) ?_
  refine (Run.follows_emit (.cancel stage_eq) rfl fun _ _ => trivial).mono ?_
  rintro _ _ rfl
  rfl

/-- Where no call is in flight, the session stays when the run is cancelled. -/
theorem follows_cancel_of_idle {machine' : Machine} (move : Move scenario machine none machine')
    (stage_eq : machine'.stage = .leaving target)
    (ledger_eq : machine'.toLedger = machine.toLedger) (todo_eq : machine'.todo = machine.todo)
    (idle : ∀ phase, machine.stage.Fits phase → phase ≠ .awaiting) :
    Follows scenario machine target.cancel fun _ after => after.stage = .ending .cancelled := by
  refine Run.follows_get_bind fun state accounts => ?_
  rw [if_neg (idle _ accounts.fits)]
  refine Run.Follows.silent move ledger_eq todo_eq ?_ (follows_leaving stage_eq)
  intro phase _
  rw [stage_eq]
  trivial

/-- Where a call may be in flight, the session is let go when the run is cancelled. -/
theorem follows_cancel_of_waits (waits : machine.stage.Waits scenario.backend target) :
    Follows scenario machine target.cancel fun _ after => after.stage = .ending .cancelled := by
  refine Run.follows_get_bind fun state accounts => ?_
  rw [if_pos (waits.awaiting_phase accounts.fits)]
  cases held_eq : machine.held with
  | none =>
      refine Run.follows_bind (Run.follows_discardSession_of_none held_eq) ?_
      rintro _ machine rfl
      refine Run.Follows.silent (.leave (.inr ⟨waits, held_eq⟩)) rfl rfl (fun _ _ => trivial) ?_
      exact follows_leaving rfl
  | some session =>
      refine Run.follows_bind (Run.follows_discardSession held_eq (.letGo waits held_eq) rfl rfl
        fun _ _ => trivial) ?_
      rintro _ _ rfl
      exact follows_leaving rfl

/-- The backend did what it must not do. -/
theorem follows_failInternal {α : Type} {post : α → Machine → Prop}
    (stage_eq : machine.stage = .failed target attempt call .cancelled) :
    Follows scenario machine
      (target.failInternal "backend cancelled a batch without a cancel request" : Run α) post := by
  refine Run.follows_get_bind fun state accounts => ?_
  have phase_eq : state.phase = .awaiting := by
    have fits := accounts.fits
    rwa [stage_eq] at fits
  rw [phase_eq]
  have refused (machine : Machine)
      (stage_eq : machine.stage = .failed target attempt call .cancelled)
      (held_eq : machine.held = none) :
      Follows scenario machine (do
        Run.enter .halted
        Run.emit (.scriptHalted target.batch.index target.refusal)
        throw (.failed (.internal "backend cancelled a batch without a cancel request"
          target.batch.index target.batch.span .awaiting)) : Run α) post :=
    Run.follows_enter_emit_bind (.refuse stage_eq held_eq) rfl trivial
      (Run.follows_throw ⟨rfl, held_eq, rfl⟩)
  cases held_eq : machine.held with
  | none =>
      refine Run.follows_bind (Run.follows_discardSession_of_none held_eq) ?_
      rintro _ machine rfl
      exact refused machine stage_eq held_eq
  | some session =>
      refine Run.follows_bind (Run.follows_discardSession held_eq
        (.discard stage_eq held_eq (.inr rfl)) rfl rfl fun _ fits => fits) ?_
      rintro _ _ rfl
      exact refused _ stage_eq rfl

/-- The machine is about to seek a session for an attempt. -/
def Seeks (scenario : Scenario) (target : Instance) (attempt : Nat) (machine : Machine) : Prop :=
  ∃ next, Move scenario machine none next ∧ next.toLedger = machine.toLedger ∧
    next.todo = machine.todo ∧ next.stage = .acquiring target attempt 0

/-- What submitting a batch until it is settled leads to. -/
def Settled (target : Instance) : Option BatchResult → Machine → Prop
  | none, machine => machine.stage = .ending .cancelled
  | some result, machine => machine.stage = .settled target result

/-- The error that ended a call is reported. -/
theorem follows_report {failure : SessionError}
    (stage_eq : machine.stage = .failed target attempt call failure)
    (not_cancelled : failure ≠ .cancelled)
    (broken : failure.breaksConnection = true → machine.held = none)
    (final : (scenario.backend.executing call).notices ≠ [] ∨
      scenario.policy.retryDelay? attempt failure = none) :
    Follows scenario machine (do
      let result ← target.report
        ((scenario.backend.executing call).notices.foldl BatchResult.record {}) failure
      return some result) (Settled target) := by
  have move := Move.report stage_eq not_cancelled broken final
  have reported : Follows scenario machine
      (target.report
        ((scenario.backend.executing call).notices.foldl BatchResult.record {}) failure)
      fun result after => after.stage = .settled target result := by
    cases failure <;>
      exact Run.follows_emit_bind move rfl (fun _ _ => trivial) (Run.follows_pure rfl)
  refine Run.follows_bind reported fun result machine stage_eq => ?_
  exact Run.follows_pure stage_eq

/-- A session that a failure broke is let go. -/
theorem follows_discardBroken {α : Type} {next : Run α} {post : α → Machine → Prop}
    {failure : SessionError} (stage_eq : machine.stage = .failed target attempt call failure)
    (rest : ∀ machine' : Machine, machine'.stage = .failed target attempt call failure →
      (failure.breaksConnection = true → machine'.held = none) →
        Follows scenario machine' next post) :
    Follows scenario machine (do
      if failure.breaksConnection then
        Run.discardSession
      next) post := by
  split
  · rename_i breaks
    cases held_eq : machine.held with
    | none =>
        refine Run.follows_bind (Run.follows_discardSession_of_none held_eq) ?_
        rintro _ machine rfl
        exact rest machine stage_eq fun _ => held_eq
    | some session =>
        refine Run.follows_bind (Run.follows_discardSession held_eq
          (.discard stage_eq held_eq (.inl breaks)) rfl rfl fun _ fits => fits) ?_
        rintro _ _ rfl
        exact rest _ stage_eq fun _ => rfl
  · rename_i keeps
    exact rest machine stage_eq fun breaks => absurd breaks keeps

/-- After a failure the batch is submitted again, or its result is settled. -/
theorem follows_failed {number : UInt32} {failure : SessionError}
    {again : Retry.Delay → Run (Option BatchResult)}
    (stage_eq : machine.stage = .failed target number.toNat call failure)
    (not_cancelled : failure ≠ .cancelled)
    (broken : failure.breaksConnection = true → machine.held = none)
    (follows_again : ∀ delay, scenario.policy.afterFailure number failure = .retry delay →
      (scenario.backend.executing call).notices = [] →
        Follows scenario { machine with stage := .pausing target number.toNat call failure }
          (again delay) (Settled target)) :
    Follows scenario machine (do
      let result := (scenario.backend.executing call).notices.foldl BatchResult.record {}
      if !(scenario.backend.executing call).notices.isEmpty then
        return some (← target.report result failure)
      match scenario.policy.afterFailure number failure with
      | .giveUp _ => return some (← target.report result failure)
      | .retry delay =>
          Run.emit (.message (some target.batch.index) (retryMessage delay failure))
          again delay) (Settled target) := by
  dsimp only
  split
  · rename_i noticed
    refine follows_report stage_eq not_cancelled broken (.inl ?_)
    simpa using noticed
  · rename_i quiet
    have no_notices : (scenario.backend.executing call).notices = [] := by simpa using quiet
    cases decision : scenario.policy.afterFailure number failure with
    | giveUp exhausted =>
        exact follows_report stage_eq not_cancelled broken
          (.inr (Retry.Policy.retryDelay?_of_giveUp decision))
    | retry delay =>
        have fits : ∀ phase, machine.stage.Fits phase →
            (Stage.pausing target number.toNat call failure).Fits phase := by
          rw [stage_eq]
          exact fun _ => id
        have move := Move.retry stage_eq broken no_notices (Retry.Policy.retry_iff.mp decision)
        exact Run.follows_emit_bind move rfl fits (follows_again delay decision no_notices)

theorem follows_settle {tracker : Retry.Tracker}
    (seeks : Seeks scenario target (tracker.attempts.toNat + 1) machine)
    (within : tracker.Within scenario.policy) :
    Follows scenario machine (target.settle scenario.policy scenario.backend tracker {})
      (Settled target) := by
  induction remaining_eq : tracker.remaining using Nat.strongRecOn generalizing tracker machine with
  | ind remaining induction =>
      obtain ⟨next, move, ledger_eq, todo_eq, stage_eq⟩ := seeks
      have fits : next.stage.Fits .dispatching := by
        rw [stage_eq]
        exact fun same => nomatch same
      unfold settle
      refine Run.follows_pass_bind move ledger_eq todo_eq fits ?_
      refine Run.follows_bind (Slot.follows_acquire stage_eq) ?_
      rintro result machine acquired
      cases result with
      | none =>
          refine Run.follows_bind (follows_cancel_of_idle (.leave (.inl acquired)) rfl rfl rfl
            fun _ => acquired.not_awaiting) ?_
          rintro _ machine stage_eq
          exact Run.follows_pure stage_eq
      | some outcome =>
          cases outcome with
          | error failure =>
              obtain ⟨tries, ⟨held_eq, call, stage_eq, outcome_eq⟩, final⟩ := acquired
              exact Run.follows_enter_emit_bind (.giveUp stage_eq outcome_eq final) rfl trivial
                (Run.follows_throw ⟨rfl, held_eq⟩)
          | ok done =>
              obtain ⟨tries, session, stage_eq, held_eq, target_eq⟩ := acquired
              dsimp only
              split
              · rename_i full
                exact Run.follows_throw ⟨Retry.Tracker.full_of_start? within full, _, _, _,
                  stage_eq, .inl (Retry.Tracker.start?_eq_none_iff.mp full)⟩
              · rename_i started start_eq
                rw [← Retry.Tracker.toNat_of_start? start_eq] at stage_eq
                refine Run.follows_pass_bind (.hold stage_eq held_eq target_eq) rfl rfl rfl ?_
                refine Run.follows_get_bind fun state accounts => ?_
                rw [accounts.held_eq, held_eq]
                have numbered := Retry.Tracker.le_maxAttempts_of_start? within start_eq
                refine Run.follows_bind (follows_submit rfl held_eq target_eq numbered) ?_
                rintro ⟨outcome, result, noticed⟩ machine submitted
                cases outcome with
                | none =>
                    refine Run.follows_bind (follows_cancel_of_waits submitted) ?_
                    rintro _ machine stage_eq
                    exact Run.follows_pure stage_eq
                | some outcome =>
                    obtain ⟨call, stage_eq, outcome_eq, rfl, rfl⟩ := submitted
                    cases outcome with
                    | ok rows =>
                        exact .silent (.succeed stage_eq outcome_eq) rfl rfl (fun _ _ => trivial)
                          (Run.follows_pure rfl)
                    | error failure =>
                        refine Run.Follows.silent (.fail stage_eq outcome_eq) rfl rfl ?_ ?_
                        · rw [stage_eq]
                          exact fun _ => id
                        dsimp only
                        split
                        · contradiction
                        · rename_i same
                          cases same
                        · rename_i same
                          obtain rfl : failure = .cancelled := by simpa using same
                          exact follows_failInternal rfl
                        · rename_i not_cancelled same
                          obtain rfl := Except.error.inj (Option.some.inj same)
                          refine follows_discardBroken rfl fun machine stage_eq broken => ?_
                          refine follows_failed stage_eq not_cancelled broken ?_
                          intro delay decision no_notices
                          have waits : (Stage.pausing target started.attempts.toNat call
                              failure).Waits scenario.backend target := .pausing
                          refine Run.follows_bind Run.follows_look ?_
                          rintro cancelled machine rfl
                          cases cancelled with
                          | true =>
                              refine Run.follows_bind (follows_cancel_of_waits waits) ?_
                              rintro _ machine stage_eq
                              exact Run.follows_pure stage_eq
                          | false =>
                              rw [no_notices]
                              have shorter := Retry.Tracker.remaining_of_start? start_eq
                              exact induction _ (remaining_eq ▸ shorter)
                                ⟨_, .again rfl, rfl, rfl, rfl⟩
                                (Retry.Tracker.within_of_retry decision) rfl

/-- Where the machine stands after an instance. -/
def Concluded : Verdict → Machine → Prop
  | .goOn, machine => machine.stage = .between
  | .halted, machine => machine.stage = .ending .halted
  | .cancelled, machine => machine.stage = .ending .cancelled

theorem follows_judge {result : BatchResult} (stage_eq : machine.stage = .settled target result) :
    Follows scenario machine (target.judge result) Concluded := by
  refine Run.follows_pass_bind (.judge stage_eq) rfl rfl (fun same => nomatch same) ?_
  refine Run.follows_bind (Run.follows_unseen (fun _ => rfl) (fun _ => rfl) fun _ => rfl) ?_
  rintro _ _ rfl
  split
  · rename_i unsuccessful
    have failed : result.classify.success = false := by simpa using unsuccessful
    refine Run.follows_bind (Run.follows_unseen (fun _ => rfl) (fun _ => rfl) fun _ => rfl) ?_
    rintro _ _ rfl
    split
    · rename_i halts
      exact Run.follows_emit_bind (.halt rfl failed halts) rfl (fun _ _ => trivial)
        (Run.follows_pure rfl)
    · rename_i goes_on
      exact Run.follows_emit_bind (.complete rfl (.inr (by simpa using goes_on))) rfl
        (fun _ fits => fits) (Run.follows_pure rfl)
  · rename_i successful
    exact Run.follows_emit_bind (.complete rfl (.inl (by simpa using successful))) rfl
      (fun _ fits => fits) (Run.follows_pure rfl)

theorem follows_greetings {α : Type} {texts : List String} {next : Run α}
    {post : α → Machine → Prop} (stage_eq : machine.stage = .greeting target texts)
    (rest : Follows scenario { machine with stage := .greeting target [] } next post) :
    Follows scenario machine (do
      texts.forM fun text => Run.emit (.message (some target.batch.index) text)
      next) post := by
  induction texts generalizing machine with
  | nil =>
      have same : machine = { machine with stage := .greeting target [] } := by
        rw [← stage_eq]
      rw [same]
      exact rest
  | cons text texts induction =>
      have fits : ∀ phase, machine.stage.Fits phase →
          (Stage.greeting target texts).Fits phase := by
        rw [stage_eq]
        exact fun _ => id
      rw [List.forM, bind_assoc]
      exact Run.follows_emit_bind (.greet stage_eq) rfl fits (induction rfl rest)

theorem follows_attempts (stage_eq : machine.stage = .greeting target []) :
    Follows scenario machine (do
      match ← target.settle scenario.policy scenario.backend {} {} with
      | none => return .cancelled
      | some result => target.judge result) Concluded := by
  have seeks : Seeks scenario target 1 machine := ⟨_, .seek stage_eq, rfl, rfl, rfl⟩
  refine Run.follows_bind
    (follows_settle seeks (Retry.Tracker.within_start scenario.policy)) ?_
  intro result machine settled
  cases result with
  | none => exact Run.follows_pure settled
  | some result => exact follows_judge settled

end Instance

end Engine
end SqlScript
