import SqlScript.Proofs.Engine.Emission
import SqlScript.Proofs.Retry.Decisions

/-!
# Waiting for sessions

Opening and closing sessions emits nothing, whatever the backend does meanwhile, and however often
an opening is retried.
-/

namespace SqlScript

namespace Engine

namespace Interruptible

variable {α β : Type} {policy : Retry.Policy} {backend : Backend}

/-- The action emits nothing and has a good result unless it is interrupted or the run never
ends. -/
def Quiet (policy : Retry.Policy) (backend : Backend) (good : α → Prop)
    (action : Interruptible α) : Prop :=
  Run.Quiet policy backend (fun result => ∀ value ∈ result, good value) action.run

theorem quiet_pure {value : α} {good : α → Prop} (holds : good value) :
    Quiet policy backend good (pure value) :=
  Run.quiet_pure (by simpa using holds)

theorem quiet_bind {action : Interruptible α} {next : α → Interruptible β} {good : α → Prop}
    {good' : β → Prop} (first : Quiet policy backend good action)
    (rest : ∀ value, good value → Quiet policy backend good' (next value)) :
    Quiet policy backend good' (action >>= next) := by
  unfold Quiet
  rw [OptionT.run_bind]
  refine Run.quiet_bind first fun result holds => ?_
  cases result with
  | none => exact Run.quiet_pure (by simp)
  | some value => exact rest value (holds value rfl)

theorem quiet_lift {action : Run α} {good : α → Prop} (quiet : action.Quiet policy backend good) :
    Quiet policy backend good (liftM action) := by
  change Run.Quiet policy backend _ (action >>= fun value => pure (some value))
  exact Run.quiet_bind quiet fun value holds => Run.quiet_pure (by simpa using holds)

theorem quiet_modify {change : RunState → RunState}
    (received_eq : ∀ state, (change state).room = state.room)
    (events_eq : ∀ state, (change state).events = state.events) :
    Quiet policy backend (fun _ => True) (modify change) :=
  quiet_lift (Run.passes_modify received_eq events_eq).quiet

theorem quiet_get_bind {next : RunState → Interruptible β} {good : β → Prop}
    (rest : ∀ state, Quiet policy backend good (next state)) :
    Quiet policy backend good (get >>= next) := by
  unfold Quiet
  rw [OptionT.run_bind]
  exact Run.emits_get_bind rest

theorem quiet_failure {good : α → Prop} : Quiet policy backend good (failure : Interruptible α) :=
  Run.quiet_pure (by simp)

theorem quiet_abandon {stop : Stop} {good : α → Prop} (endless : stop.Endless policy backend) :
    Quiet policy backend good (abandon stop : Interruptible α) :=
  quiet_lift (Run.emits_throw ⟨rfl, endless⟩)

theorem quiet_checkpoint : Quiet policy backend (fun _ => True) checkpoint := by
  refine quiet_bind (quiet_lift Run.passes_look.quiet) fun cancelled _ => ?_
  cases cancelled with
  | true => exact quiet_failure
  | false => exact quiet_pure trivial

theorem quiet_await {turn : Interruptible Unit}
    (quiet_turn : Quiet policy backend (fun _ => True) turn)
    {behavior : Behavior} (keeps : behavior.KeepsReceiver)
    (returns : backend.Returns → behavior.Returns) :
    Quiet policy backend (fun _ => True) (await turn behavior) := by
  induction behavior with
  | finish outcome => exact quiet_pure trivial
  | stall => exact quiet_bind quiet_turn fun _ _ => quiet_abandon returns
  | yield next ih => exact quiet_bind quiet_turn fun _ _ => ih keeps returns
  | notify notice next ih => exact ih keeps returns
  | cancel next ih =>
    exact quiet_bind (quiet_lift Run.passes_requestCancel.quiet) fun _ _ => ih keeps returns
  | dropReceiver next => exact keeps.elim

end Interruptible

namespace Slot

open Interruptible (Quiet)

variable {policy : Retry.Policy} {backend : Backend}

theorem quiet_close {turn : Interruptible Unit}
    (quiet_turn : Quiet policy backend (fun _ => True) turn) (keeps : backend.KeepsReceiver) :
    Quiet policy backend (fun _ => True) (close backend turn) := by
  refine Interruptible.quiet_get_bind fun state => ?_
  split
  · exact Interruptible.quiet_pure trivial
  · refine Interruptible.quiet_bind
      (Interruptible.quiet_modify (fun _ => rfl) fun _ => rfl) fun _ _ => ?_
    split
    · refine Interruptible.quiet_get_bind fun state => ?_
      refine Interruptible.quiet_bind
        (Interruptible.quiet_lift (Run.passes_record _).quiet) fun _ _ => ?_
      refine Interruptible.quiet_bind
        (Interruptible.quiet_modify (fun _ => rfl) fun _ => rfl) fun _ _ => ?_
      exact Interruptible.quiet_bind
        (Interruptible.quiet_await quiet_turn (keeps.closing _) fun all => all.closing _)
        fun _ _ => Interruptible.quiet_pure trivial
    · exact Interruptible.quiet_lift (Run.passes_record _).quiet

theorem quiet_opening (keeps : backend.KeepsReceiver) (target : Option String) (attempt : UInt32) :
    Quiet policy backend (fun _ => True) ((opening backend target).attempt attempt) := by
  refine Interruptible.quiet_get_bind fun state => ?_
  refine Interruptible.quiet_bind
    (Interruptible.quiet_lift (Run.passes_record _).quiet) fun _ _ => ?_
  refine Interruptible.quiet_bind
    (Interruptible.quiet_modify (fun _ => rfl) fun _ => rfl) fun _ _ => ?_
  refine Interruptible.quiet_bind
    (Interruptible.quiet_await Interruptible.quiet_checkpoint (keeps.opening _)
      fun all => all.opening _) fun outcome _ => ?_
  cases outcome with
  | error failure => exact Interruptible.quiet_pure trivial
  | ok rows =>
      refine Interruptible.quiet_bind
        (Interruptible.quiet_modify (fun _ => rfl) fun _ => rfl) fun _ _ => ?_
      exact Interruptible.quiet_get_bind fun state => Interruptible.quiet_pure trivial

theorem quiet_observe (target : Option String) (progress : Retry.Progress) :
    Quiet policy backend (fun _ => True) ((opening backend target).observe progress) :=
  Interruptible.quiet_pure trivial

/-- Retrying an opening runs out of numbers only under a policy without a lower limit. -/
theorem quiet_runFrom (keeps : backend.KeepsReceiver) (target : Option String)
    {tracker : Retry.Tracker} (within : tracker.Within policy) :
    Quiet policy backend (fun result => result = none → policy.maxRetries + 1 = 0)
      (policy.runFrom (opening backend target) tracker) := by
  induction remaining_eq : tracker.remaining using Nat.strongRecOn generalizing tracker with
  | ind remaining ih =>
      unfold Retry.Policy.runFrom
      split
      · rename_i full
        exact Interruptible.quiet_pure fun _ => Retry.Tracker.full_of_start? within full
      · rename_i started start_eq
        refine Interruptible.quiet_bind (quiet_observe target _) fun _ _ => ?_
        refine Interruptible.quiet_bind (quiet_opening keeps target _) fun outcome _ => ?_
        cases outcome with
        | ok session =>
            exact Interruptible.quiet_bind (quiet_observe target _) fun _ _ =>
              Interruptible.quiet_pure (by simp)
        | error failure =>
            refine Interruptible.quiet_bind (quiet_observe target _) fun _ _ => ?_
            cases decision : policy.afterFailure started.attempts failure with
            | retry delay =>
                refine Interruptible.quiet_bind (quiet_observe target _) fun _ _ => ?_
                refine Interruptible.quiet_bind Interruptible.quiet_checkpoint fun _ _ => ?_
                have shorter := Retry.Tracker.remaining_of_start? start_eq
                exact ih _ (remaining_eq ▸ shorter) (Retry.Tracker.within_of_retry decision) rfl
            | giveUp exhausted =>
                cases exhausted with
                | true =>
                    exact Interruptible.quiet_bind (quiet_observe target _) fun _ _ =>
                      Interruptible.quiet_pure (by simp)
                | false => exact Interruptible.quiet_pure (by simp)

/-- Acquiring a session emits nothing. -/
theorem quiet_acquire (keeps : backend.KeepsReceiver) (target : Option String) :
    Quiet policy backend (fun _ => True) (acquire policy backend target) := by
  refine Interruptible.quiet_bind Interruptible.quiet_checkpoint fun _ _ => ?_
  refine Interruptible.quiet_get_bind fun state => ?_
  dsimp only
  split
  · exact Interruptible.quiet_pure trivial
  · refine Interruptible.quiet_bind
      (quiet_close Interruptible.quiet_checkpoint keeps) fun _ _ => ?_
    refine Interruptible.quiet_bind
      (quiet_runFrom keeps target (Retry.Tracker.within_start policy)) fun result numbered => ?_
    cases result with
    | none => exact Interruptible.quiet_abandon (numbered rfl)
    | some outcome =>
        cases outcome with
        | error failure => exact Interruptible.quiet_pure trivial
        | ok session =>
            exact Interruptible.quiet_bind
              (Interruptible.quiet_modify (fun _ => rfl) fun _ => rfl) fun _ _ =>
                Interruptible.quiet_pure trivial

end Slot
end Engine
end SqlScript
