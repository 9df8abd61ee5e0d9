import SqlScript.Proofs.Engine.Attention

/-!
# Hearing a call out

While a batch runs, its notices are told in the order in which they were sent, up to the end of the
call or to the turn at which a request to cancel the run is noticed.  A request is noticed at the
first turn behind it.
-/

namespace SqlScript
namespace Engine

open Trace

/-- From `state` on, events were told, and no call was made. -/
structure Speaks (state after : RunState) (events : List Event) : Prop where
  trace_eq : after.trace.toList = state.trace.toList ++ events.map .event
  phase_eq : after.phase = state.phase
  session_eq : after.session = state.session
  openings_eq : after.openings = state.openings
  executions_eq : after.executions = state.executions
  closings_eq : after.closings = state.closings

namespace Speaks

variable {state middle after : RunState} {events events' : List Event}

theorem refl (state : RunState) : Speaks state state [] where
  trace_eq := by simp
  phase_eq := rfl
  session_eq := rfl
  openings_eq := rfl
  executions_eq := rfl
  closings_eq := rfl

theorem trans (speaks : Speaks state middle events) (speaks' : Speaks middle after events') :
    Speaks state after (events ++ events') where
  trace_eq := by
    rw [speaks'.trace_eq, speaks.trace_eq, List.map_append, List.append_assoc]
  phase_eq := speaks'.phase_eq.trans speaks.phase_eq
  session_eq := speaks'.session_eq.trans speaks.session_eq
  openings_eq := speaks'.openings_eq.trans speaks.openings_eq
  executions_eq := speaks'.executions_eq.trans speaks.executions_eq
  closings_eq := speaks'.closings_eq.trans speaks.closings_eq

/-- What an audience does cannot be seen. -/
theorem unseen (speaks : Speaks state after events) (audience : Audience) :
    Speaks state { after with toAudience := audience } events :=
  ⟨speaks.trace_eq, speaks.phase_eq, speaks.session_eq, speaks.openings_eq, speaks.executions_eq,
    speaks.closings_eq⟩

theorem attends {backend : Backend} {audience : Audience} {asks : Bool}
    (speaks : Speaks state after events) (attends : Attends backend audience asks state)
    (patience_eq : after.patience = state.patience) : Attends backend audience asks after :=
  attends.tell speaks.trace_eq patience_eq speaks.openings_eq speaks.executions_eq
    speaks.closings_eq

end Speaks

theorem Run.ensures_emit (event : Event) (state : RunState) :
    (emit event).Ensures state fun result after =>
      match result with
      | .ok () => Speaks state after [event] ∧ after.patience = state.patience
      | .error stop => stop = .failed .receiverGone ∧ after = state := by
  refine ensures_get_bind.mpr ?_
  split
  · exact ensures_throw.mpr ⟨rfl, rfl⟩
  · exact ensures_set.mpr ⟨⟨Array.toList_push, rfl, rfl, rfl, rfl, rfl⟩, rfl⟩

/-- What is known of a call that sent `notices` when the wait for it has ended. -/
def CallEnding.Answers (notices : List Notice) : CallEnding → Instance.Submission → Prop
  | returned outcome, submission =>
      submission =
        { outcome := some outcome
          result := notices.foldl BatchResult.record {}
          noticed := !notices.isEmpty }
  | interrupted, submission => submission.outcome = none
  | stalled, _ => False

namespace Instance

variable {backend : Backend} {audience : Audience} (target : Instance)

/-- Begun in `state`, where the notices in `sent` have been told, the wait for a call tells those in
`coming` and ends as `ending` says, unless they are not received. -/
def Hears (backend : Backend) (audience : Audience) (sent coming : List Notice)
    (ending : CallEnding) (state : RunState) : Except Stop Submission → RunState → Prop
  | .ok submission, after =>
      Attends backend audience false after ∧ Speaks state after (coming.map target.eventOf) ∧
        ending.Answers (sent ++ coming) submission ∧
          (submission.outcome = none → after.patience = some 0)
  | .error stop, after =>
      stop = .failed .receiverGone ∧
          (∃ told : List Notice, Speaks state after (told.map target.eventOf)) ∨
        stop = .stalled ∧ ending = .stalled ∧ Speaks state after (coming.map target.eventOf)

variable {target}

/-- Notices that were told before the wait goes on are told during the wait. -/
theorem Hears.behind {sent told coming : List Notice} {ending : CallEnding}
    {state middle after : RunState} {result : Except Stop Submission}
    (hears : target.Hears backend audience (sent ++ told) coming ending middle result after)
    (speaks : Speaks state middle (told.map target.eventOf)) :
    target.Hears backend audience sent (told ++ coming) ending state result after := by
  have all (coming : List Notice) (speaks' : Speaks middle after (coming.map target.eventOf)) :
      Speaks state after ((told ++ coming).map target.eventOf) := by
    rw [List.map_append]
    exact speaks.trans speaks'
  cases result with
  | ok submission =>
      obtain ⟨attends, speaks', answers, noticed⟩ := hears
      rw [List.append_assoc] at answers
      exact ⟨attends, all coming speaks', answers, noticed⟩
  | error stop =>
      rcases hears with ⟨rfl, told', speaks'⟩ | ⟨rfl, rfl, speaks'⟩
      · exact .inl ⟨rfl, told ++ told', all told' speaks'⟩
      · exact .inr ⟨rfl, rfl, all coming speaks'⟩

variable (target)

/-- Notices that wait are told in order. -/
theorem ensures_forward (queue : List Notice) (result : BatchResult) (state : RunState) :
    (queue.foldlM target.forward result).Ensures state fun outcome after =>
      match outcome with
      | .ok value =>
          value = queue.foldl BatchResult.record result ∧
            Speaks state after (queue.map target.eventOf) ∧ after.patience = state.patience
      | .error stop =>
          stop = .failed .receiverGone ∧
            ∃ told : List Notice, Speaks state after (told.map target.eventOf) := by
  induction queue generalizing result state with
  | nil => exact Run.ensures_pure.mpr ⟨rfl, .refl state, rfl⟩
  | cons notice queue induction =>
      rw [List.foldlM_cons]
      refine Run.ensures_bind.mpr (Run.ensures_bind.mpr ((Run.ensures_emit _ state).mono ?_))
      rintro (stop | _) middle holds
      · obtain ⟨rfl, rfl⟩ := holds
        exact ⟨rfl, [], .refl _⟩
      · obtain ⟨first, patience_eq⟩ := holds
        refine Run.ensures_pure.mpr ((induction (result.record notice) middle).mono ?_)
        rintro (stop | value) after holds
        · obtain ⟨rfl, told, rest⟩ := holds
          exact ⟨rfl, notice :: told, first.trans rest⟩
        · obtain ⟨rfl, rest, patience_eq'⟩ := holds
          exact ⟨rfl, first.trans rest, patience_eq'.trans patience_eq⟩

theorem ensures_conclude_bind {sent queue coming : List Notice} {ending : CallEnding}
    {outcome : Option (Except SessionError (Option Nat))} {next : Submission → Run Submission}
    {state : RunState}
    (rest : ∀ after, Speaks state after (queue.map target.eventOf) →
      after.patience = state.patience →
        (next
          { outcome
            result := (sent ++ queue).foldl BatchResult.record {}
            noticed := !(sent ++ queue).isEmpty }).Ensures after
          (target.Hears backend audience sent coming ending state)) :
    (do next (← target.conclude (sent.foldl BatchResult.record {}) (!sent.isEmpty) queue
      outcome)).Ensures state (target.Hears backend audience sent coming ending state) := by
  refine Run.ensures_bind.mpr (Run.ensures_bind.mpr
    ((target.ensures_forward queue _ state).mono ?_))
  rintro (stop | value) after holds
  · obtain ⟨rfl, told, speaks⟩ := holds
    exact .inl ⟨rfl, told, speaks⟩
  · obtain ⟨rfl, speaks, patience_eq⟩ := holds
    have noticed_eq : (!sent.isEmpty || !queue.isEmpty) = !(sent ++ queue).isEmpty := by
      cases sent <;> rfl
    have rest := rest after speaks patience_eq
    rw [List.foldl_append, ← noticed_eq] at rest
    exact rest

theorem ensures_await {behavior : Behavior} (sent queue : List Notice) {state : RunState}
    (attends : Attends backend audience behavior.asks state) :
    (target.await behavior (sent.foldl BatchResult.record {}) (!sent.isEmpty) queue).Ensures state
      (target.Hears backend audience sent (queue ++ behavior.heard state.patience)
        (behavior.ending state.patience) state) := by
  -- What waits in the queue is told at the next turn, before a request is looked for.
  induction behavior generalizing sent queue state with
  | finish outcome =>
      unfold await
      rw [← bind_pure (target.conclude _ _ _ _)]
      refine target.ensures_conclude_bind fun after speaks patience_eq => ?_
      refine Run.ensures_pure.mpr ⟨speaks.attends attends patience_eq, ?_, ?_, nofun⟩
      · simpa [Behavior.heard] using speaks
      · simp [Behavior.heard, Behavior.ending, CallEnding.Answers]
  | stall =>
      refine target.ensures_conclude_bind fun after speaks patience_eq => ?_
      have attends := speaks.attends attends patience_eq
      rw [Behavior.heard, List.append_nil]
      refine Run.ensures_look_bind.mpr ?_
      cases noticed : after.cancelled with
      | true =>
          have used_up : after.patience = some 0 := beq_iff_eq.mp noticed
          have looked_eq := RunState.looked_of_cancelled noticed
          refine ⟨attends.look.interrupted looked_eq, speaks.unseen _, ?_, fun _ => looked_eq⟩
          rw [Behavior.ending, if_pos (patience_eq.symm.trans used_up)]
          rfl
      | false =>
          have patient : after.patience ≠ some 0 := beq_eq_false_iff_ne.mp noticed
          rw [patience_eq] at patient
          exact .inr ⟨rfl, if_neg patient, speaks.unseen _⟩
  | yield next induction =>
      refine target.ensures_conclude_bind fun after speaks patience_eq => ?_
      have attends := speaks.attends attends patience_eq
      refine Run.ensures_look_bind.mpr ?_
      cases noticed : after.cancelled with
      | true =>
          have used_up : after.patience = some 0 := beq_iff_eq.mp noticed
          have used_up' := patience_eq.symm.trans used_up
          rw [Behavior.heard, if_pos used_up', Behavior.ending, if_pos used_up', List.append_nil]
          have looked_eq := RunState.looked_of_cancelled noticed
          exact ⟨attends.look.interrupted looked_eq, speaks.unseen _, rfl, fun _ => looked_eq⟩
      | false =>
          have patient : after.patience ≠ some 0 := beq_eq_false_iff_ne.mp noticed
          rw [patience_eq] at patient
          rw [Behavior.heard, if_neg patient, Behavior.ending, if_neg patient, ← patience_eq]
          refine (induction (sent ++ queue) [] attends.look).mono ?_
          exact fun result final hears => hears.behind (speaks.unseen _)
  | notify notice next induction =>
      have behind := induction sent (queue ++ [notice]) attends
      rw [List.append_assoc] at behind
      exact behind
  | cancel next induction =>
      refine (induction sent queue (attends.requestCancel next.asks)).mono ?_
      intro result after hears
      rw [← List.append_nil sent] at hears
      exact hears.behind ((Speaks.refl state).unseen _)
  | dropReceiver next induction =>
      have unheard : Attends backend audience next.asks { state with room := some 0 } :=
        attends.of_eq rfl rfl rfl rfl rfl
      refine (induction sent queue unheard).mono ?_
      intro result after hears
      rw [← List.append_nil sent] at hears
      exact hears.behind ((Speaks.refl state).unseen _)

end Instance

/-- Of the patience of the audience at least one turn is spent when a batch has been submitted.  An
audience that never asks for the run to be cancelled does not come to ask for it. -/
def Audience.Leaves (audience : Audience) : (patience : Option Nat) → Prop
  | none => audience.patience = none
  | some left => ∃ total, audience.patience = some total ∧ left < total

/-- The patience that is left once a request was looked for and none was found. -/
theorem Attends.leaves {backend : Backend} {audience : Audience} {state : RunState}
    (attends : Attends backend audience false state) (unnoticed : state.cancelled = false) :
    audience.Leaves state.looked.patience := by
  rw [show state.looked.patience = state.patience.map (· - 1) from rfl]
  cases left_eq : state.patience with
  | none => exact attends.minds_all.boundless left_eq
  | some last =>
      have unasked : ¬Asked backend state.trace.toList :=
        fun asked => attends.not_requested unnoticed (.inr asked)
      obtain ⟨total, total_eq, last_le⟩ := attends.minds_all.calm unasked last left_eq
      have patient : last ≠ 0 := by
        rintro rfl
        rw [RunState.cancelled, left_eq] at unnoticed
        contradiction
      have spent : last - 1 < total := by omega
      exact ⟨total, total_eq, spent⟩

namespace Instance

variable {backend : Backend} {audience : Audience} (target : Instance)

/-- A batch is submitted where no request is noticed, and then it is waited for. -/
theorem ensures_submit {session : Session} {state : RunState}
    (attends : Attends backend audience false state) :
    let behavior := backend.executing (executed state.trace.toList).length
    (target.submit backend session {}).Ensures state fun result after =>
      (∃ submission, result = .ok submission ∧ submission.outcome = none ∧
          after = { state with toAudience := state.looked } ∧ after.patience = some 0) ∨
        ¬Requested backend audience state.trace.toList ∧
          ∃ patience submitted, audience.Leaves patience ∧
            submitted.trace.toList =
              state.trace.toList ++ [.call (.execute session.number target.batch.text)] ∧
            submitted.phase = state.phase ∧ submitted.session = state.session ∧
            target.Hears backend audience [] (behavior.heard patience) (behavior.ending patience)
              submitted result after := by
  rw [attends.executions_eq]
  intro behavior
  refine Run.ensures_look_bind.mpr ?_
  cases noticed : state.cancelled with
  | true => exact .inl ⟨_, rfl, rfl, rfl, RunState.looked_of_cancelled noticed⟩
  | false =>
      let submitted : RunState :=
        { state with
          toAudience := state.looked
          trace := state.trace.push (.call (.execute session.number target.batch.text))
          executions := state.executions + 1 }
      have called : Attends backend audience behavior.asks submitted := by
        have called : Attends backend audience _ submitted :=
          attends.look.call (.execute session.number target.batch.text) Array.toList_push rfl rfl
            rfl rfl
        rwa [Backend.behavior?, attends.executions_eq] at called
      rw [if_neg Bool.false_ne_true]
      refine Run.ensures_get_bind.mpr (Run.ensures_bind.mpr (Run.ensures_modify.mpr
        (Run.ensures_bind.mpr (Run.ensures_modify.mpr ?_))))
      refine (target.ensures_await [] [] called).mono fun _ after hears => ?_
      exact .inr ⟨attends.not_requested noticed, _, submitted, attends.leaves noticed,
        Array.toList_push, rfl, rfl, hears⟩

end Instance

end Engine
end SqlScript
