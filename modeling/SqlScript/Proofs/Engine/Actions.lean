import SqlScript.Engine
import SqlScript.Proofs.Engine.Emission

/-!
# Properties of all actions

A property of actions is pervasive if the elementary actions have it and if it passes from actions
to what is put together from them.  Whatever is pervasive holds of every action with which an
instance is settled, however sessions are acquired and released and however often the batch is
submitted.  Sessions are acquired and released without a word, so that what holds of them need not
hold of an action that tells an event.  Elementary actions see nothing of the receiver of events but
whether it is gone, and nothing of the trace that was left so far.
-/

namespace SqlScript
namespace Engine

/-- The audience that receives at most `room` more events. -/
def Audience.limit (audience : Audience) (room : Nat) : Audience :=
  { audience with room := some ((audience.room.map (min room)).getD room) }

/-- The state before an audience that receives at most `room` more events. -/
def RunState.limit (state : RunState) (room : Nat) : RunState :=
  { state with toAudience := state.toAudience.limit room }

/-- The state with another receiver of events and another trace. -/
def RunState.facing (state : RunState) (room : Option Nat) (trace : Array Entry) : RunState :=
  { state with room, trace }

/-- The result of the instance that the event completes. -/
def Event.completion? : Event → Option BatchResult
  | batchCompleted _ _ result => some result
  | _ => none

namespace Run

/-- The change concerns neither the trace nor the receiver of events. -/
structure Internal (change : RunState → RunState) : Prop where
  facing_eq : ∀ state room trace,
    change (state.facing room trace) = (change state).facing room trace := by intros; rfl

namespace Internal

variable {change : RunState → RunState}

theorem eq_facing (internal : Internal change) (state : RunState) :
    change state = (change state).facing state.room state.trace :=
  internal.facing_eq state state.room state.trace

theorem trace_eq (internal : Internal change) (state : RunState) :
    (change state).trace = state.trace := by
  rw [internal.eq_facing]
  rfl

theorem room_eq (internal : Internal change) (state : RunState) :
    (change state).room = state.room := by
  rw [internal.eq_facing]
  rfl

theorem limit_eq (internal : Internal change) (state : RunState) (room : Nat) :
    change (state.limit room) = (change state).limit room := by
  calc
    change (state.limit room) =
        (change state).facing (state.limit room).room state.trace :=
      internal.facing_eq state _ _
    _ = (change state).limit room := by
      rw [RunState.limit, RunState.limit, Audience.limit, Audience.limit, internal.room_eq,
        ← internal.trace_eq state]
      rfl

end Internal

/-- The change concerns neither the trace nor the totals nor the receiver of events. -/
structure Bookkeeping (change : RunState → RunState) : Prop extends Internal change where
  executed_eq : ∀ state, (change state).executed = state.executed := by intros; rfl
  failed_eq : ∀ state, (change state).failed = state.failed := by intros; rfl

/-- Elementary actions that tell no event have the property, and it passes to what is put together
from them. -/
structure Tacit (holds : {α : Type} → Run α → Prop) : Prop where
  pure {α : Type} (value : α) : holds (pure value : Run α)
  throw {α : Type} (stop : Stop) : holds (throw stop : Run α)
  bind {α β : Type} {action : Run α} {next : α → Run β} :
    holds action → (∀ value, holds (next value)) → holds (action >>= next)
  /-- What is read is neither how many events are received nor the trace. -/
  read {α : Type} {next : RunState → Run α} :
    (∀ state room trace, next (state.facing room trace) = next state) →
      (∀ state, holds (next state)) → holds (get >>= next)
  update {change : RunState → RunState} : Bookkeeping change → holds (modify change)
  dropReceiver : holds dropReceiver
  record (call : Call) : holds (record call)
  look : holds look

/-- All elementary actions have the property, and it passes to what is put together from them. -/
structure Pervasive (holds : {α : Type} → Run α → Prop) : Prop extends Tacit @holds where
  emit {event : Event} : event.completion? = none → holds (emit event)

variable {holds : {α : Type} → Run α → Prop} {α β : Type}

namespace Tacit

theorem enter (tacit : Tacit @holds) (phase : Phase) : holds (enter phase) :=
  tacit.update {}

theorem requestCancel (tacit : Tacit @holds) : holds requestCancel :=
  tacit.update {}

theorem discardSession (tacit : Tacit @holds) : holds discardSession := by
  refine tacit.read (fun _ _ _ => rfl) fun state => ?_
  split
  · exact tacit.pure ()
  · exact tacit.bind (tacit.update {}) fun _ => tacit.record _

theorem bind_interruptible (tacit : Tacit @holds) {action : Interruptible α}
    {next : α → Interruptible β} (first : holds action.run)
    (rest : ∀ value, holds (next value).run) : holds (action >>= next).run := by
  rw [OptionT.run_bind]
  refine tacit.bind first fun result => ?_
  cases result with
  | none => exact tacit.pure none
  | some value => exact rest value

theorem lift (tacit : Tacit @holds) {action : Run α} (first : holds action) :
    holds (liftM action : Interruptible α).run :=
  tacit.bind first fun value => tacit.pure (some value)

theorem read_interruptible (tacit : Tacit @holds) {next : RunState → Interruptible α}
    (same : ∀ state room trace, next (state.facing room trace) = next state)
    (rest : ∀ state, holds (next state).run) : holds (get >>= next : Interruptible α).run := by
  change holds (get >>= fun state => (next state).run)
  exact tacit.read same rest

theorem update_interruptible (tacit : Tacit @holds) {change : RunState → RunState}
    (bookkeeping : Bookkeeping change) : holds (modify change : Interruptible Unit).run :=
  tacit.lift (tacit.update bookkeeping)

theorem checkpoint (tacit : Tacit @holds) : holds Interruptible.checkpoint.run := by
  refine tacit.bind_interruptible (tacit.lift tacit.look) fun cancelled => ?_
  cases cancelled with
  | true => exact tacit.pure none
  | false => exact tacit.pure (some ())

theorem abandon (tacit : Tacit @holds) (stop : Stop) :
    holds (Interruptible.abandon stop : Interruptible α).run :=
  tacit.lift (tacit.throw stop)

theorem await (tacit : Tacit @holds) {turn : Interruptible Unit} (turns : holds turn.run)
    (behavior : Behavior) : holds (Interruptible.await turn behavior).run := by
  induction behavior with
  | finish outcome => exact tacit.pure _
  | stall => exact tacit.bind_interruptible turns fun _ => tacit.abandon .stalled
  | yield next ih => exact tacit.bind_interruptible turns fun _ => ih
  | notify notice next ih => exact ih
  | cancel next ih =>
      exact tacit.bind_interruptible (tacit.lift tacit.requestCancel) fun _ => ih
  | dropReceiver next ih =>
      exact tacit.bind_interruptible (tacit.lift tacit.dropReceiver) fun _ => ih

end Tacit

theorem Pervasive.forM (pervasive : Pervasive @holds) {event : String → Event}
    (no_result : ∀ text, (event text).completion? = none) (texts : List String) :
    holds (texts.forM fun text => Run.emit (event text)) := by
  induction texts with
  | nil => exact pervasive.pure ()
  | cons text texts ih => exact pervasive.bind (pervasive.emit (no_result text)) fun _ => ih

end Run

open Run (Tacit Pervasive)

variable {holds : {α : Type} → Run α → Prop} {α : Type}

namespace Slot

theorem tacit_close (tacit : Tacit @holds) (backend : Backend)
    {turn : Interruptible Unit} (turns : holds turn.run) : holds (close backend turn).run := by
  refine tacit.read_interruptible (fun _ _ _ => rfl) fun state => ?_
  split
  · exact tacit.pure _
  · refine tacit.bind_interruptible (tacit.update_interruptible {}) fun _ => ?_
    split
    · refine tacit.read_interruptible (fun _ _ _ => rfl) fun state => ?_
      refine tacit.bind_interruptible (tacit.lift (tacit.record _)) fun _ => ?_
      refine tacit.bind_interruptible (tacit.update_interruptible {}) fun _ => ?_
      exact tacit.bind_interruptible (tacit.await turns _) fun _ => tacit.pure _
    · exact tacit.lift (tacit.record _)

theorem tacit_opening (tacit : Tacit @holds) (backend : Backend)
    (target : Option String) (attempt : UInt32) :
    holds ((opening backend target).attempt attempt).run := by
  refine tacit.read_interruptible (fun _ _ _ => rfl) fun state => ?_
  refine tacit.bind_interruptible (tacit.lift (tacit.record _)) fun _ => ?_
  refine tacit.bind_interruptible (tacit.update_interruptible {}) fun _ => ?_
  refine tacit.bind_interruptible (tacit.await tacit.checkpoint _) fun outcome => ?_
  cases outcome with
  | error failure => exact tacit.pure _
  | ok rows =>
      refine tacit.bind_interruptible (tacit.update_interruptible {}) fun _ => ?_
      exact tacit.read_interruptible (fun _ _ _ => rfl) fun state => tacit.pure _

theorem tacit_runFrom (tacit : Tacit @holds) (policy : Retry.Policy)
    (backend : Backend) (target : Option String) (tracker : Retry.Tracker) :
    holds (policy.runFrom (opening backend target) tracker).run := by
  have observe (progress : Retry.Progress) :
      holds ((opening backend target).observe progress).run := tacit.pure _
  induction remaining_eq : tracker.remaining using Nat.strongRecOn generalizing tracker with
  | ind remaining ih =>
      unfold Retry.Policy.runFrom
      split
      · exact tacit.pure _
      · rename_i started start_eq
        refine tacit.bind_interruptible (observe _) fun _ => ?_
        refine tacit.bind_interruptible
          (tacit_opening tacit backend target _) fun outcome => ?_
        cases outcome with
        | ok session =>
            exact tacit.bind_interruptible (observe _) fun _ => tacit.pure _
        | error failure =>
            refine tacit.bind_interruptible (observe _) fun _ => ?_
            cases policy.afterFailure started.attempts failure with
            | retry delay =>
                refine tacit.bind_interruptible (observe _) fun _ => ?_
                refine tacit.bind_interruptible tacit.checkpoint fun _ => ?_
                have shorter := Retry.Tracker.remaining_of_start? start_eq
                exact ih _ (remaining_eq ▸ shorter) _ rfl
            | giveUp exhausted =>
                cases exhausted with
                | true =>
                    exact tacit.bind_interruptible (observe _) fun _ => tacit.pure _
                | false => exact tacit.pure _

theorem tacit_acquire (tacit : Tacit @holds) (policy : Retry.Policy)
    (backend : Backend) (target : Option String) :
    holds (acquire policy backend target).run := by
  refine tacit.bind_interruptible tacit.checkpoint fun _ => ?_
  refine tacit.read_interruptible (fun _ _ _ => rfl) fun state => ?_
  dsimp only
  split
  · exact tacit.pure _
  · refine tacit.bind_interruptible
      (tacit_close tacit backend tacit.checkpoint) fun _ => ?_
    refine tacit.bind_interruptible
      (tacit_runFrom tacit policy backend target _) fun result => ?_
    cases result with
    | none => exact tacit.abandon .uncounted
    | some outcome =>
        cases outcome with
        | error failure => exact tacit.pure _
        | ok session =>
            exact tacit.bind_interruptible (tacit.update_interruptible {}) fun _ =>
              tacit.pure _

end Slot

namespace Instance

variable (target : Instance)

theorem completion?_eventOf (notice : Notice) : (target.eventOf notice).completion? = none := by
  cases notice <;> rfl

theorem pervasive_forward (pervasive : Pervasive @holds) (result : BatchResult)
    (notice : Notice) : holds (target.forward result notice) :=
  pervasive.bind (pervasive.emit (completion?_eventOf target notice)) fun _ => pervasive.pure _

theorem pervasive_conclude (pervasive : Pervasive @holds) (result : BatchResult)
    (noticed : Bool) (queue : List Notice)
    (outcome : Option (Except SessionError (Option Nat))) :
    holds (target.conclude result noticed queue outcome) := by
  have forwarded : holds (queue.foldlM target.forward result) := by
    induction queue generalizing result with
    | nil => exact pervasive.pure result
    | cons notice queue ih =>
        rw [List.foldlM_cons]
        exact pervasive.bind (pervasive_forward target pervasive result notice) ih
  exact pervasive.bind forwarded fun _ => pervasive.pure _

theorem pervasive_await (pervasive : Pervasive @holds) (behavior : Behavior)
    (result : BatchResult) (noticed : Bool) (queue : List Notice) :
    holds (target.await behavior result noticed queue) := by
  induction behavior generalizing result noticed queue with
  | finish outcome => exact pervasive_conclude target pervasive _ _ _ _
  | stall =>
      refine pervasive.bind (pervasive_conclude target pervasive _ _ _ _) fun submission => ?_
      refine pervasive.bind pervasive.look fun cancelled => ?_
      split
      · exact pervasive.pure submission
      · exact pervasive.throw .stalled
  | yield next ih =>
      refine pervasive.bind (pervasive_conclude target pervasive _ _ _ _) fun submission => ?_
      refine pervasive.bind pervasive.look fun cancelled => ?_
      split
      · exact pervasive.pure submission
      · exact ih _ _ _
  | notify notice next ih => exact ih _ _ _
  | cancel next ih => exact pervasive.bind pervasive.requestCancel fun _ => ih _ _ _
  | dropReceiver next ih => exact pervasive.bind pervasive.dropReceiver fun _ => ih _ _ _

theorem pervasive_submit (pervasive : Pervasive @holds) (backend : Backend) (session : Session)
    (result : BatchResult) : holds (target.submit backend session result) := by
  refine pervasive.bind pervasive.look fun cancelled => ?_
  split
  · exact pervasive.pure _
  · refine pervasive.read (fun _ _ _ => rfl) fun state => ?_
    refine pervasive.bind (pervasive.record _) fun _ => ?_
    refine pervasive.bind (pervasive.update {}) fun _ => ?_
    exact pervasive_await target pervasive _ _ _ _

theorem pervasive_cancel (pervasive : Pervasive @holds) : holds target.cancel := by
  have announced : holds (do
      Run.enter .cancelled
      Run.emit (.scriptCancelled target.batch.index)) :=
    pervasive.bind (pervasive.enter _) fun _ => pervasive.emit rfl
  refine pervasive.read (fun _ _ _ => rfl) fun state => ?_
  split
  · exact pervasive.bind pervasive.discardSession fun _ => announced
  · exact announced

theorem pervasive_failInternal (pervasive : Pervasive @holds) (message : String) :
    holds (target.failInternal message : Run α) := by
  refine pervasive.read (fun _ _ _ => rfl) fun state => ?_
  refine pervasive.bind pervasive.discardSession fun _ => ?_
  refine pervasive.bind (pervasive.enter _) fun _ => ?_
  exact pervasive.bind (pervasive.emit rfl) fun _ => pervasive.throw _

theorem pervasive_report (pervasive : Pervasive @holds) (result : BatchResult)
    (failure : SessionError) : holds (target.report result failure) := by
  cases failure with
  | server failure => exact pervasive_forward target pervasive result (.error failure)
  | _ => exact pervasive.bind (pervasive.emit rfl) fun _ => pervasive.pure _

theorem pervasive_after_discard (pervasive : Pervasive @holds) (lost : Bool)
    {rest : Unit → Run α} (holds_rest : ∀ value, holds (rest value)) :
    holds (if lost = true then Run.discardSession >>= rest else rest ()) := by
  split
  · exact pervasive.bind pervasive.discardSession holds_rest
  · exact holds_rest ()

/-- What is pervasive holds of an instance up to its result. -/
theorem pervasive_settle (pervasive : Pervasive @holds) (policy : Retry.Policy)
    (backend : Backend) (tracker : Retry.Tracker) (result : BatchResult) :
    holds (target.settle policy backend tracker result) := by
  have ended : holds (do target.cancel; return none : Run (Option BatchResult)) :=
    pervasive.bind (pervasive_cancel target pervasive) fun _ => pervasive.pure none
  have reported (result : BatchResult) (failure : SessionError) :
      holds (do return some (← target.report result failure)) :=
    pervasive.bind (pervasive_report target pervasive result failure) fun _ => pervasive.pure _
  induction remaining_eq : tracker.remaining using Nat.strongRecOn
    generalizing tracker result with
  | ind remaining ih =>
      unfold settle
      refine pervasive.bind (pervasive.enter _) fun _ => ?_
      have acquires :=
        Slot.tacit_acquire pervasive.toTacit policy backend target.batch.connectTarget
      refine pervasive.bind acquires fun acquired => ?_
      split
      · exact ended
      · refine pervasive.bind (pervasive.enter _) fun _ => ?_
        exact pervasive.bind (pervasive.emit rfl) fun _ => pervasive.throw _
      · split
        · exact pervasive.throw .uncounted
        · rename_i started start_eq
          refine pervasive.bind (pervasive.enter _) fun _ => ?_
          refine pervasive.read (fun _ _ _ => rfl) fun state => ?_
          split
          · exact pervasive_failInternal target pervasive _
          · refine pervasive.bind
              (pervasive_submit target pervasive backend _ result) fun submission => ?_
            split
            · exact ended
            · exact pervasive.pure _
            · exact pervasive_failInternal target pervasive _
            · rename_i failure _ _
              refine pervasive_after_discard pervasive _ fun _ => ?_
              dsimp only
              split
              · exact reported _ _
              · cases policy.afterFailure started.attempts failure with
                | giveUp exhausted => exact reported _ _
                | retry delay =>
                    refine pervasive.bind (pervasive.emit rfl) fun _ => ?_
                    refine pervasive.bind pervasive.look fun cancelled => ?_
                    split
                    · exact ended
                    · have shorter := Retry.Tracker.remaining_of_start? start_eq
                      exact ih _ (remaining_eq ▸ shorter) _ _ rfl

end Instance

theorem tacit_finish (tacit : Tacit @holds) (backend : Backend) (phase : Phase) :
    holds (finish backend phase) := by
  refine tacit.bind (Slot.tacit_close tacit backend (tacit.pure _)) fun _ => ?_
  refine tacit.bind (tacit.enter phase) fun _ => ?_
  exact tacit.read (fun _ _ _ => rfl) fun state => tacit.pure _

/-- What a run that stops does with the session it holds. -/
def Stop.parting (stop : Stop) (held : Option Session) : List Entry :=
  match stop, held with
  | failed _, some session => [.call (.discard session.number)]
  | _, _ => []

theorem ensures_parting {α : Type} (stop : Stop) (state : RunState) :
    Run.Ensures (do
      match stop with
      | .failed _ => Run.discardSession
      | _ => pure ()
      throw stop : Run α) state fun result after =>
        result = .error stop ∧
          after.trace.toList = state.trace.toList ++ stop.parting state.session := by
  cases stop with
  | stalled | uncounted => exact ⟨rfl, (List.append_nil _).symm⟩
  | failed failure =>
      refine Run.ensures_bind.mpr (Run.ensures_get_bind.mpr ?_)
      cases state.session with
      | none => exact ⟨rfl, (List.append_nil _).symm⟩
      | some session => exact ⟨rfl, Array.toList_push⟩

end Engine
end SqlScript
