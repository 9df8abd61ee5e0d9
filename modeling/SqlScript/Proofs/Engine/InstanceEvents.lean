import SqlScript.Proofs.Engine.EventStream

/-!
# Events of one instance

While an instance runs only events of its own are emitted, however its notices arrive and however
often it is submitted.  Where the run ends within an instance, a terminal event says so.
-/

namespace SqlScript
namespace Engine

/-- The last events of a run that ends, with a verdict or a stop, in the batch `index`. -/
def Ending (policy : Retry.Policy) (backend : Backend) (index : Nat) :
    Except Stop Verdict → List Event → Prop
  | .ok .goOn, _ => False
  | .ok .cancelled, events => events = [.scriptCancelled index]
  | .ok .halted, events => ∃ reason, events = [.scriptHalted index reason]
  | .error (.failed failure), events =>
      ∃ reason, HaltReason index failure reason ∧ events = [.scriptHalted index reason]
  | .error stop, events => stop.Endless policy backend ∧ events = []

theorem ending_of_endless {policy : Retry.Policy} {backend : Backend} {stop : Stop} (index : Nat)
    (endless : stop.Endless policy backend) : Ending policy backend index (.error stop) [] := by
  cases stop with
  | failed => exact endless.elim
  | stalled => exact ⟨endless, rfl⟩
  | uncounted => exact ⟨endless, rfl⟩

namespace Instance

variable {α β : Type} {policy : Retry.Policy} {backend : Backend} {target : Instance}

/-- The action emits events of the instance and then those of which `ending` holds. -/
def Emits (target : Instance) (action : Run α) (ending : Except Stop α → List Event → Prop) :
    Prop :=
  action.Emits fun result events => ∃ inner last, events = inner ++ last ∧
    (∀ event ∈ inner, target.Concerns event) ∧ ending result last

/-- Nothing else is emitted, and no action but an endless one is given up. -/
def Talk (policy : Retry.Policy) (backend : Backend) : Except Stop α → List Event → Prop
  | .ok _, last => last = []
  | .error stop, last => last = [] ∧ stop.Endless policy backend

theorem emits_of_ending {action : Run α} {ending : Except Stop α → List Event → Prop}
    (emits : action.Emits ending) : target.Emits action ending :=
  emits.mono fun _ events holds => ⟨[], events, rfl, by simp, holds⟩

theorem emits_of_quiet {action : Run α} {good : α → Prop}
    (quiet : action.Quiet policy backend good) :
    target.Emits action (Talk policy backend) := by
  refine quiet.mono fun result events holds => ?_
  obtain ⟨rfl, holds⟩ := holds
  refine ⟨[], [], rfl, by simp, ?_⟩
  cases result with
  | ok value => exact rfl
  | error stop => exact ⟨rfl, holds⟩

theorem emits_event {event : Event} (concerns : target.Concerns event) :
    target.Emits (Run.emit event) (Talk policy backend) := by
  refine (Run.emits_emit event).mono fun result events holds => ?_
  obtain ⟨rfl, rfl⟩ := holds
  exact ⟨[event], [], rfl, by simpa using concerns, rfl⟩

theorem emits_bind {action : Run α} {next : α → Run β} {ending : Except Stop β → List Event → Prop}
    (first : target.Emits action (Talk policy backend))
    (rest : ∀ value, target.Emits (next value) ending)
    (stopped : ∀ stop, stop.Endless policy backend → ending (.error stop) []) :
    target.Emits (action >>= next) ending := by
  refine Run.emits_bind first ?_ ?_
  · rintro value front ⟨inner, last, rfl, concerns, rfl⟩
    refine (rest value).mono fun result back holds => ?_
    obtain ⟨inner', last', rfl, concerns', ended⟩ := holds
    refine ⟨inner ++ inner', last', by simp, ?_, ended⟩
    exact List.forall_mem_append.mpr ⟨concerns, concerns'⟩
  · rintro stop events ⟨inner, last, rfl, concerns, rfl, endless⟩
    exact ⟨inner, [], rfl, concerns, stopped stop endless⟩

theorem talk_bind {action : Run α} {next : α → Run β}
    (first : target.Emits action (Talk policy backend))
    (rest : ∀ value, target.Emits (next value) (Talk policy backend)) :
    target.Emits (action >>= next) (Talk policy backend) :=
  emits_bind first rest fun _ endless => ⟨rfl, endless⟩

theorem talk_of_passes {action : Run α} (passes : action.Passes) :
    target.Emits action (Talk policy backend) :=
  emits_of_quiet passes.quiet

theorem talk_pure (value : α) : target.Emits (pure value) (Talk policy backend) :=
  talk_of_passes (Run.passes_pure value)

theorem emits_get_bind {next : RunState → Run β} {ending : Except Stop β → List Event → Prop}
    (rest : ∀ state, target.Emits (next state) ending) :
    target.Emits (get >>= next : Run β) ending :=
  Run.emits_get_bind rest

theorem concerns_eventOf (target : Instance) (notice : Notice) :
    target.Concerns (target.eventOf notice) := by
  cases notice with
  | message text => exact rfl
  | error failure => exact ⟨rfl, rfl⟩

theorem talk_forward (result : BatchResult) (notice : Notice) :
    target.Emits (target.forward result notice) (Talk policy backend) :=
  talk_bind (emits_event (concerns_eventOf target notice)) fun _ => talk_pure _

theorem talk_forwardAll (queue : List Notice) (result : BatchResult) :
    target.Emits (queue.foldlM target.forward result) (Talk policy backend) := by
  induction queue generalizing result with
  | nil => exact talk_pure result
  | cons notice queue ih =>
      rw [List.foldlM_cons]
      exact talk_bind (talk_forward result notice) ih

theorem talk_conclude (result : BatchResult) (noticed : Bool) (queue : List Notice)
    (outcome : Option (Except SessionError (Option Nat))) :
    target.Emits (target.conclude result noticed queue outcome) (Talk policy backend) :=
  talk_bind (talk_forwardAll queue result) fun _ => talk_pure _

theorem talk_await {behavior : Behavior} (keeps : behavior.KeepsReceiver)
    (returns : backend.Returns → behavior.Returns) (result : BatchResult) (noticed : Bool)
    (queue : List Notice) :
    target.Emits (target.await behavior result noticed queue) (Talk policy backend) := by
  induction behavior generalizing result noticed queue with
  | finish outcome => exact talk_conclude result noticed queue _
  | stall =>
      refine talk_bind (talk_conclude result noticed queue _) fun submission => ?_
      refine talk_bind (talk_of_passes Run.passes_look) fun cancelled => ?_
      split
      · exact talk_pure submission
      · exact emits_of_ending (Run.emits_throw ⟨rfl, returns⟩)
  | yield next ih =>
      refine talk_bind (talk_conclude result noticed queue _) fun submission => ?_
      refine talk_bind (talk_of_passes Run.passes_look) fun cancelled => ?_
      split
      · exact talk_pure submission
      · exact ih keeps returns _ _ _
  | notify notice next ih => exact ih keeps returns _ _ _
  | cancel next ih =>
      exact talk_bind (talk_of_passes Run.passes_requestCancel) fun _ => ih keeps returns _ _ _
  | dropReceiver next => exact keeps.elim

theorem talk_submit (keeps : backend.KeepsReceiver) (session : Session) (result : BatchResult) :
    target.Emits (target.submit backend session result) (Talk policy backend) := by
  refine talk_bind (talk_of_passes Run.passes_look) fun cancelled => ?_
  split
  · exact talk_pure _
  · refine emits_get_bind fun state => ?_
    refine talk_bind (talk_of_passes (Run.passes_record _)) fun _ => ?_
    refine talk_bind (talk_of_passes (Run.passes_modify (fun _ => rfl) fun _ => rfl)) fun _ => ?_
    exact talk_await (keeps.executing _) (fun all => all.executing _) _ _ _

theorem talk_report (result : BatchResult) (failure : SessionError) :
    target.Emits (target.report result failure) (Talk policy backend) := by
  have talk_session (failure : SessionError) (reported : BatchResult) :
      target.Emits (do
        Run.emit (.error target.batch.index target.repetition (.session failure.message))
        return reported) (Talk policy backend) :=
    talk_bind (emits_event ⟨rfl, rfl⟩) fun _ => talk_pure reported
  cases failure with
  | server failure => exact talk_forward result (.error failure)
  | _ => exact talk_session _ _

theorem emits_cancel :
    target.cancel.Emits fun result events =>
      result = .ok () ∧ events = [.scriptCancelled target.batch.index] := by
  have announced : Run.Emits (do
      Run.enter .cancelled
      Run.emit (.scriptCancelled target.batch.index)) fun result events =>
        result = .ok () ∧ events = [.scriptCancelled target.batch.index] :=
    Run.emits_passes_bind (Run.passes_enter _) fun _ => Run.emits_emit _
  refine Run.emits_get_bind fun state => ?_
  split
  · exact Run.emits_passes_bind Run.passes_discardSession fun _ => announced
  · exact announced

theorem emits_failInternal (message : String) :
    (target.failInternal message : Run α).Emits fun result events =>
      ∃ failure reason, HaltReason target.batch.index failure reason ∧
        result = .error (.failed failure) ∧
          events = [.scriptHalted target.batch.index reason] := by
  refine Run.emits_get_bind fun state => ?_
  refine Run.emits_passes_bind Run.passes_discardSession fun _ => ?_
  refine Run.emits_passes_bind (Run.passes_enter _) fun _ => ?_
  exact Run.emits_emit_bind (Run.emits_throw ⟨_, _, .internal, rfl, rfl⟩)

/-- The events behind those of an instance when its result is settled or the run ends in it. -/
def Settles (policy : Retry.Policy) (backend : Backend) (target : Instance) :
    Except Stop (Option BatchResult) → List Event → Prop
  | .ok (some _), last => last = []
  | .ok none, last => Ending policy backend target.batch.index (.ok .cancelled) last
  | .error stop, last => Ending policy backend target.batch.index (.error stop) last

theorem settles_cancel :
    target.Emits (do target.cancel; return none) (Settles policy backend target) := by
  refine emits_of_ending (Run.emits_bind emits_cancel ?_ ?_)
  · rintro value front ⟨-, rfl⟩
    exact Run.emits_pure rfl
  · rintro stop events ⟨no_stop, -⟩
    contradiction

theorem settles_failInternal (message : String) :
    target.Emits (target.failInternal message) (Settles policy backend target) := by
  refine emits_of_ending ((emits_failInternal message).mono fun result events holds => ?_)
  obtain ⟨failure, reason, halt_reason, rfl, rfl⟩ := holds
  exact ⟨reason, halt_reason, rfl⟩

theorem settles_connection (failure : SessionError) :
    target.Emits (do
      Run.enter .halted
      Run.emit (.scriptHalted target.batch.index ("failed to open a session: " ++ failure.message))
      throw (.failed (.connection failure))) (Settles policy backend target) := by
  refine emits_of_ending (Run.emits_passes_bind (Run.passes_enter _) fun _ => ?_)
  exact Run.emits_emit_bind (Run.emits_throw ⟨_, .connection, rfl⟩)

theorem settles_bind {action : Run α} {next : α → Run (Option BatchResult)}
    (first : target.Emits action (Talk policy backend))
    (rest : ∀ value, target.Emits (next value) (Settles policy backend target)) :
    target.Emits (action >>= next) (Settles policy backend target) :=
  emits_bind first rest fun _ endless => ending_of_endless _ endless

theorem settles_pure (result : BatchResult) :
    target.Emits (pure (some result)) (Settles policy backend target) :=
  emits_of_ending (Run.emits_pure rfl)

theorem settles_after_discard (lost : Bool) {rest : Unit → Run (Option BatchResult)}
    (settles : ∀ value, target.Emits (rest value) (Settles policy backend target)) :
    target.Emits (if lost = true then Run.discardSession >>= rest else rest ())
      (Settles policy backend target) := by
  split
  · exact settles_bind (talk_of_passes Run.passes_discardSession) settles
  · exact settles ()

/-- Whatever happens to its attempts, an instance is settled or the run ends in it. -/
theorem emits_settle (keeps : backend.KeepsReceiver) {tracker : Retry.Tracker}
    (within : tracker.Within policy) (result : BatchResult) :
    target.Emits (target.settle policy backend tracker result) (Settles policy backend target) := by
  induction remaining_eq : tracker.remaining using Nat.strongRecOn
    generalizing tracker result with
  | ind remaining ih =>
      unfold settle
      refine settles_bind (talk_of_passes (Run.passes_enter _)) fun _ => ?_
      refine settles_bind (emits_of_quiet (Slot.quiet_acquire keeps _)) fun acquired => ?_
      split
      · exact settles_cancel
      · exact settles_connection _
      · split
        · rename_i full
          exact emits_of_ending (Run.emits_throw
            ⟨Retry.Tracker.full_of_start? within full, rfl⟩)
        · rename_i started start_eq
          refine settles_bind (talk_of_passes (Run.passes_enter _)) fun _ => ?_
          refine emits_get_bind fun state => ?_
          split
          · exact settles_failInternal _
          · rename_i session session_eq
            refine settles_bind (talk_submit keeps session result) fun submission => ?_
            split
            · exact settles_cancel
            · exact settles_pure _
            · exact settles_failInternal _
            · rename_i failure _ _
              refine settles_after_discard _ fun _ => ?_
              dsimp only
              split
              · exact settles_bind (talk_report _ _) fun reported => settles_pure reported
              · cases decision : policy.afterFailure started.attempts failure with
                | giveUp exhausted =>
                    exact settles_bind (talk_report _ _) fun reported => settles_pure reported
                | retry delay =>
                    refine settles_bind (emits_event rfl) fun _ => ?_
                    refine settles_bind (talk_of_passes Run.passes_look) fun cancelled => ?_
                    split
                    · exact settles_cancel
                    · have shorter := Retry.Tracker.remaining_of_start? start_eq
                      exact ih _ (remaining_eq ▸ shorter) (Retry.Tracker.within_of_retry decision)
                        _ rfl

/-- The last events of an instance that is completed or in which the run ends. -/
def Concludes (policy : Retry.Policy) (backend : Backend) (target : Instance)
    (verdict : Except Stop Verdict) (last : List Event) : Prop :=
  (verdict = .ok .goOn ∧ ∃ result,
    last = [.batchCompleted target.batch.index target.repetition result]) ∨
  Ending policy backend target.batch.index verdict last

theorem emits_judge (policy : Retry.Policy) (backend : Backend) (result : BatchResult) :
    (target.judge result).Emits (Concludes policy backend target) := by
  have completed : Run.Emits (do
      Run.emit (.batchCompleted target.batch.index target.repetition result.classify)
      return .goOn) (Concludes policy backend target) :=
    Run.emits_emit_bind (Run.emits_pure (.inl ⟨rfl, _, rfl⟩))
  refine Run.emits_passes_bind (Run.passes_enter _) fun _ => ?_
  refine Run.emits_passes_bind (Run.passes_modify (fun _ => rfl) fun _ => rfl) fun _ => ?_
  split
  · refine Run.emits_passes_bind (Run.passes_modify (fun _ => rfl) fun _ => rfl) fun _ => ?_
    split
    · exact Run.emits_emit_bind (Run.emits_pure (.inr ⟨_, rfl⟩))
    · exact completed
  · exact completed

/-- Behind its opening events an instance is completed or the run ends in it. -/
theorem emits_attempts (keeps : backend.KeepsReceiver) :
    target.Emits (do
      match ← target.settle policy backend {} {} with
      | none => return .cancelled
      | some result => target.judge result) (Concludes policy backend target) := by
  refine Run.emits_bind (emits_settle keeps (Retry.Tracker.within_start policy) {}) ?_ ?_
  · rintro (_ | result) front ⟨inner, last, rfl, concerns, settled⟩
    · exact Run.emits_pure ⟨inner, last, by simp, concerns, .inr settled⟩
    · obtain rfl : last = [] := settled
      refine (emits_judge policy backend result).mono fun verdict events holds => ?_
      exact ⟨inner, events, by simp, concerns, holds⟩
  · rintro stop events ⟨inner, last, rfl, concerns, ended⟩
    exact ⟨inner, last, rfl, concerns, .inr ended⟩

end Instance
end Engine
end SqlScript
