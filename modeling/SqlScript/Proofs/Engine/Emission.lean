import SqlScript.Engine.Slot
import SqlScript.Proofs.Engine.Ensures

/-!
# Events that actions emit

As long as somebody receives events, every action of a run adds events to those before it and
removes none.  What an action emits is told apart from what it does to sessions and calls; most
actions emit nothing at all.
-/

namespace SqlScript
namespace Engine

/-- The events so far. -/
def RunState.events (state : RunState) : List Event :=
  state.trace.toList.filterMap Entry.event?

/-- The receiver of events stays during the call. -/
def Behavior.KeepsReceiver : Behavior → Prop
  | finish _ | stall => True
  | yield next | notify _ next | cancel next => next.KeepsReceiver
  | dropReceiver _ => False

/-- The call returns. -/
def Behavior.Returns : Behavior → Prop
  | finish _ => True
  | stall => False
  | yield next | notify _ next | cancel next | dropReceiver next => next.Returns

namespace Backend

/-- The receiver of events stays during all calls. -/
structure KeepsReceiver (backend : Backend) : Prop where
  opening : ∀ call, (backend.opening call).KeepsReceiver
  executing : ∀ call, (backend.executing call).KeepsReceiver
  closing : ∀ call, (backend.closing call).KeepsReceiver

/-- All calls return. -/
structure Returns (backend : Backend) : Prop where
  opening : ∀ call, (backend.opening call).Returns
  executing : ∀ call, (backend.executing call).Returns
  closing : ∀ call, (backend.closing call).Returns

end Backend

/-- The reasons for which a run may never come to an end.  Attempts can only run out of numbers
under a policy that allows as many retries as thirty-two bits can count. -/
def Stop.Endless (policy : Retry.Policy) (backend : Backend) : Stop → Prop
  | stalled => ¬backend.Returns
  | uncounted => policy.maxRetries + 1 = 0
  | failed _ => False

namespace Run

variable {α β : Type} {policy : Retry.Policy} {backend : Backend}

/-- While events are received, the action emits events that stand in the relation `emitted` to its
result. -/
def Emits (action : Run α) (emitted : Except Stop α → List Event → Prop) : Prop :=
  ∀ state, state.room = none → action.Ensures state fun result after =>
    after.room = none ∧ ∃ events, after.events = state.events ++ events ∧ emitted result events

/-- The action emits nothing and has a good result unless the run never ends. -/
def Quiet (policy : Retry.Policy) (backend : Backend) (good : α → Prop) (action : Run α) : Prop :=
  action.Emits fun result events =>
    events = [] ∧
      match result with
      | .ok value => good value
      | .error stop => stop.Endless policy backend

/-- The action emits nothing and comes to its end. -/
def Passes (action : Run α) : Prop :=
  action.Emits fun result events => (∃ value, result = .ok value) ∧ events = []

theorem Emits.mono {action : Run α} {emitted emitted' : Except Stop α → List Event → Prop}
    (emits : action.Emits emitted)
    (weaker : ∀ result events, emitted result events → emitted' result events) :
    action.Emits emitted' := by
  intro state received
  refine (emits state received).mono fun result after holds => ?_
  obtain ⟨received_after, events, events_eq, emitted_events⟩ := holds
  exact ⟨received_after, events, events_eq, weaker result events emitted_events⟩

theorem emits_pure {value : α} {emitted : Except Stop α → List Event → Prop}
    (holds : emitted (.ok value) []) : Emits (pure value) emitted := by
  intro state received
  exact ensures_pure.mpr ⟨received, [], by simp, holds⟩

theorem emits_throw {stop : Stop} {emitted : Except Stop α → List Event → Prop}
    (holds : emitted (.error stop) []) : Emits (throw stop) emitted := by
  intro state received
  exact ensures_throw.mpr ⟨received, [], by simp, holds⟩

theorem emits_bind {action : Run α} {next : α → Run β}
    {emitted : Except Stop α → List Event → Prop} {emitted' : Except Stop β → List Event → Prop}
    (first : action.Emits emitted)
    (rest : ∀ value front, emitted (.ok value) front →
      (next value).Emits fun result back => emitted' result (front ++ back))
    (stopped : ∀ stop events, emitted (.error stop) events → emitted' (.error stop) events) :
    (action >>= next).Emits emitted' := by
  intro state received
  refine ensures_bind.mpr ((first state received).mono fun result middle holds => ?_)
  obtain ⟨received_middle, front, front_eq, emitted_front⟩ := holds
  cases result with
  | error stop => exact ⟨received_middle, front, front_eq, stopped stop front emitted_front⟩
  | ok value =>
      refine (rest value front emitted_front middle received_middle).mono
        fun result after holds => ?_
      obtain ⟨received_after, back, back_eq, emitted_back⟩ := holds
      refine ⟨received_after, front ++ back, ?_, emitted_back⟩
      rw [back_eq, front_eq, List.append_assoc]

theorem emits_get_bind {next : RunState → Run β} {emitted : Except Stop β → List Event → Prop}
    (rest : ∀ state, (next state).Emits emitted) : (get >>= next : Run β).Emits emitted :=
  fun state received => ensures_get_bind.mpr (rest state state received)

theorem emits_quiet_bind {action : Run α} {next : α → Run β} {good : α → Prop}
    {emitted : Except Stop β → List Event → Prop} (first : action.Quiet policy backend good)
    (rest : ∀ value, good value → (next value).Emits emitted)
    (stopped : ∀ stop, stop.Endless policy backend → emitted (.error stop) []) :
    (action >>= next).Emits emitted := by
  refine emits_bind first ?_ ?_
  · rintro value front ⟨rfl, holds⟩
    exact rest value holds
  · rintro stop events ⟨rfl, endless⟩
    exact stopped stop endless

theorem quiet_bind {action : Run α} {next : α → Run β} {good : α → Prop} {good' : β → Prop}
    (first : action.Quiet policy backend good)
    (rest : ∀ value, good value → (next value).Quiet policy backend good') :
    (action >>= next).Quiet policy backend good' :=
  emits_quiet_bind first rest fun _ endless => ⟨rfl, endless⟩

theorem quiet_pure {value : α} {good : α → Prop} (holds : good value) :
    Quiet policy backend good (pure value) :=
  emits_pure ⟨rfl, holds⟩

theorem Passes.quiet {action : Run α} (passes : action.Passes) :
    action.Quiet policy backend fun _ => True := by
  refine passes.mono fun result events holds => ?_
  obtain ⟨⟨value, rfl⟩, rfl⟩ := holds
  exact ⟨rfl, trivial⟩

theorem emits_passes_bind {action : Run α} {next : α → Run β}
    {emitted : Except Stop β → List Event → Prop} (first : action.Passes)
    (rest : ∀ value, (next value).Emits emitted) : (action >>= next).Emits emitted := by
  refine emits_bind first ?_ ?_
  · rintro value front ⟨-, rfl⟩
    exact rest value
  · rintro stop events ⟨⟨value, no_stop⟩, -⟩
    contradiction

theorem passes_pure (value : α) : Passes (pure value) :=
  emits_pure ⟨⟨value, rfl⟩, rfl⟩

theorem passes_modify {change : RunState → RunState}
    (received_eq : ∀ state, (change state).room = state.room)
    (events_eq : ∀ state, (change state).events = state.events) : Passes (modify change) := by
  intro state received
  exact ensures_modify.mpr
    ⟨(received_eq state).trans received, [], by rw [events_eq, List.append_nil], ⟨(), rfl⟩, rfl⟩

theorem events_push_call (trace : Array Entry) (call : Call) :
    (trace.push (.call call)).toList.filterMap Entry.event? =
      trace.toList.filterMap Entry.event? := by
  simp [Entry.event?]

theorem passes_enter (phase : Phase) : (enter phase).Passes :=
  passes_modify (fun _ => rfl) fun _ => rfl

theorem passes_record (call : Call) : (record call).Passes :=
  passes_modify (fun _ => rfl) fun state => events_push_call state.trace call

theorem passes_requestCancel : requestCancel.Passes :=
  passes_modify (fun _ => rfl) fun _ => rfl

theorem passes_look : look.Passes := by
  intro state received
  exact ⟨received, [], (List.append_nil _).symm, ⟨_, rfl⟩, rfl⟩

theorem passes_discardSession : discardSession.Passes := by
  refine emits_get_bind fun state => ?_
  split
  · exact passes_pure ()
  · exact emits_passes_bind (passes_modify (fun _ => rfl) fun _ => rfl) fun _ => passes_record _

theorem emits_emit (event : Event) :
    (emit event).Emits fun result events => result = .ok () ∧ events = [event] := by
  intro state received
  unfold emit
  refine ensures_get_bind.mpr ?_
  rw [if_neg (by simp [received])]
  refine ensures_set.mpr ⟨by simp [Audience.received, received], [event], ?_, rfl, rfl⟩
  simp [RunState.events, Entry.event?]

theorem emits_emit_bind {event : Event} {next : Run β}
    {emitted : Except Stop β → List Event → Prop}
    (rest : next.Emits fun result events => emitted result (event :: events)) :
    (do emit event; next).Emits emitted := by
  refine emits_bind (emits_emit event) ?_ ?_
  · rintro value front ⟨-, rfl⟩
    exact rest
  · rintro stop events ⟨no_stop, -⟩
    contradiction

theorem emits_forM_bind {texts : List String} {event : String → Event} {next : Run β}
    {emitted : Except Stop β → List Event → Prop}
    (rest : next.Emits fun result events => emitted result (texts.map event ++ events)) :
    (do texts.forM fun text => emit (event text); next).Emits emitted := by
  induction texts generalizing emitted with
  | nil => exact rest
  | cons text texts ih =>
      rw [List.forM, bind_assoc]
      exact emits_emit_bind (ih rest)

end Run
end Engine
end SqlScript
