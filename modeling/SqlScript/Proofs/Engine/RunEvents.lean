import SqlScript.Proofs.Engine.InstanceEvents

/-!
# Events of a whole run

Instances run one after the other, so their blocks follow one another.  A run as a whole emits a
stream of the grammar, and its last event tells how it ended.
-/

namespace SqlScript
namespace Engine

variable {policy : Retry.Policy} {backend : Backend}

/-- The events of instances that are run one after the other until one ends the run. -/
inductive Runs (policy : Retry.Policy) (backend : Backend) (targets : List Instance)
    (verdict : Except Stop Verdict) : List Event → Prop
  | through {events : List Event} :
      verdict = .ok .goOn → Blocks targets events → Runs policy backend targets verdict events
  | ended {last : Instance} {events ending : List Event} :
      CutOff last targets events → Ending policy backend last.batch.index verdict ending →
        Runs policy backend targets verdict (events ++ ending)

theorem runs_bind {targets targets' : List Instance} {first rest : Run Verdict}
    (emits_first : first.Emits (Runs policy backend targets))
    (emits_rest : rest.Emits (Runs policy backend targets')) :
    Run.Emits (do
      match ← first with
      | .goOn => rest
      | verdict => return verdict) (Runs policy backend (targets ++ targets')) := by
  refine Run.emits_bind emits_first ?_ ?_
  · rintro verdict front (⟨verdict_eq, blocks⟩ | ⟨cut, ended⟩)
    · obtain rfl := Except.ok.inj verdict_eq
      refine emits_rest.mono fun result back runs => ?_
      rcases runs with ⟨rfl, blocks'⟩ | ⟨cut, ended⟩
      · exact .through rfl (blocks.append blocks')
      · rw [← List.append_assoc]
        exact .ended (cut.append_left blocks) ended
    · cases verdict with
      | goOn => exact ended.elim
      | halted | cancelled =>
          refine Run.emits_pure ?_
          rw [List.append_nil]
          exact .ended (cut.append_right targets') ended
  · rintro stop events (⟨no_stop, -⟩ | ⟨cut, ended⟩)
    · contradiction
    · exact .ended (cut.append_right targets') ended

theorem runs_unbegun (target : Instance) :
    Runs policy backend [target] (.ok .cancelled) ([] ++ [.scriptCancelled target.batch.index]) :=
  .ended .unbegun rfl

theorem runs_of_concludes {target : Instance} {verdict : Except Stop Verdict}
    {inner last : List Event} (concerns : ∀ event ∈ inner, target.Concerns event)
    (concludes : target.Concludes policy backend verdict last) :
    Runs policy backend [target] verdict (target.opening ++ (inner ++ last)) := by
  rcases concludes with ⟨rfl, result, rfl⟩ | ended
  · have block : target.Block _ := .intro result concerns
    have blocks := Blocks.cons block .nil
    rw [List.append_nil] at blocks
    exact .through rfl blocks
  · rw [← List.append_assoc]
    exact .ended (.begun (.intro concerns)) ended

/-- With its opening events before it, what an instance emits is its block or the beginning of
it. -/
theorem runs_attempts (policy : Retry.Policy) (keeps : backend.KeepsReceiver)
    (target : Instance) :
    Run.Emits (do
      match ← target.settle policy backend {} {} with
      | none => return .cancelled
      | some result => target.judge result) fun verdict events =>
        Runs policy backend [target] verdict (target.opening ++ events) := by
  refine (Instance.emits_attempts keeps).mono fun verdict events holds => ?_
  obtain ⟨inner, last, rfl, concerns, concludes⟩ := holds
  exact runs_of_concludes concerns concludes

/-- Running an instance once emits its block, or the beginning of its block and how the run
ended. -/
theorem emits_instance (keeps : backend.KeepsReceiver) (target : Instance) :
    (target.run policy backend).Emits (Runs policy backend [target]) := by
  have attempts := runs_attempts policy keeps target
  refine Run.emits_passes_bind Run.passes_look fun cancelled => ?_
  split
  · refine Run.emits_bind Instance.emits_cancel ?_ ?_
    · rintro value front ⟨-, rfl⟩
      exact Run.emits_pure (runs_unbegun target)
    · rintro stop events ⟨no_stop, -⟩
      contradiction
  · refine Run.emits_passes_bind (Run.passes_enter _) fun _ => ?_
    refine Run.emits_emit_bind ?_
    dsimp only
    split
    · rename_i first_time
      rw [Instance.opening, if_pos first_time] at attempts
      exact Run.emits_forM_bind attempts
    · rename_i repeated
      rw [Instance.opening, if_neg repeated] at attempts
      exact attempts

theorem emits_repeats (policy : Retry.Policy) (keeps : backend.KeepsReceiver) (batch : Batch)
    {remaining : Nat}
    (enough : remaining ≤ batch.repeatCount) :
    (runRepeats policy backend batch remaining).Emits
      (Runs policy backend ((List.range' (batch.repeatCount - remaining + 1) remaining).map
        fun repetition => { batch, repetition })) := by
  induction remaining with
  | zero => exact Run.emits_pure (.through rfl .nil)
  | succ remaining ih =>
      have next_eq : batch.repeatCount - (remaining + 1) + 1 = batch.repeatCount - remaining := by
        omega
      rw [List.range'_succ, next_eq]
      exact runs_bind (emits_instance keeps _) (ih (by omega))

theorem emits_batches (keeps : backend.KeepsReceiver) (batches : List Batch) :
    (runBatches policy backend batches).Emits
      (Runs policy backend (batches.flatMap Batch.instances)) := by
  induction batches with
  | nil => exact Run.emits_pure (.through rfl .nil)
  | cons batch batches ih =>
      rw [List.flatMap_cons]
      have repeats := emits_repeats policy keeps batch (Nat.le_refl batch.repeatCount)
      rw [Nat.sub_self] at repeats
      exact runs_bind repeats ih

theorem quiet_finish (policy : Retry.Policy) (keeps : backend.KeepsReceiver) (phase : Phase) :
    (finish backend phase).Quiet policy backend fun summary => summary.phase = phase := by
  refine Run.quiet_bind (Slot.quiet_close (Interruptible.quiet_pure trivial) keeps) fun _ _ => ?_
  refine Run.quiet_bind (Run.passes_enter phase).quiet fun _ _ => ?_
  exact Run.emits_get_bind fun state => Run.quiet_pure rfl

/-- What a run that never ends has emitted begins a stream. -/
theorem stream_of_endless {script : Script} {stop : Stop} {last : Instance} {events : List Event}
    (endless : stop.Endless policy backend) (cut : CutOff last script.instances events) :
    Stream policy backend script (.error stop) events := by
  have cancelled : Stream policy backend script
      (.ok { phase := .cancelled, executed := 0, failed := 0 }) _ :=
    .cancelled rfl cut
  exact .unended endless cancelled

theorem stream_of_stop {script : Script} {last : Instance} {events ending : List Event}
    {stop : Stop} (cut : CutOff last script.instances events)
    (ended : Ending policy backend last.batch.index (.error stop) ending) :
    Stream policy backend script (.error stop) (events ++ ending) := by
  cases stop with
  | failed failure =>
      obtain ⟨reason, halt_reason, rfl⟩ := ended
      exact .failed halt_reason cut
  | stalled | uncounted =>
      obtain ⟨endless, rfl⟩ := ended
      rw [List.append_nil]
      exact stream_of_endless endless cut

/-- Closing the session behind a terminal event emits nothing more. -/
theorem emits_finish (keeps : backend.KeepsReceiver) {script : Script} {phase : Phase}
    {events : List Event}
    (stream : ∀ summary : Summary, summary.phase = phase →
      Stream policy backend script (.ok summary) events) :
    (finish backend phase).Emits fun result back =>
      Stream policy backend script result (events ++ back) := by
  refine (quiet_finish policy keeps phase).mono fun result back holds => ?_
  obtain ⟨rfl, holds⟩ := holds
  rw [List.append_nil]
  cases result with
  | ok summary => exact stream summary holds
  | error stop =>
      have ended := stream { phase, executed := 0, failed := 0 } rfl
      rw [← List.append_nil events] at ended
      exact .unended holds ended

theorem emits_script (policy : Retry.Policy) (keeps : backend.KeepsReceiver) (script : Script) :
    (runScript policy backend script).Emits (Stream policy backend script) := by
  refine Run.emits_passes_bind (Run.passes_enter _) fun _ => ?_
  refine Run.emits_bind (emits_batches keeps script.runnable) ?_ ?_
  · rintro verdict front (⟨verdict_eq, blocks⟩ | ⟨cut, ended⟩)
    · obtain rfl := Except.ok.inj verdict_eq
      refine Run.emits_forM_bind (Run.emits_quiet_bind (quiet_finish policy keeps .completed) ?_ ?_)
      · intro summary phase_eq
        exact Run.emits_emit_bind (Run.emits_pure (.completed phase_eq blocks))
      · intro stop endless
        have completed : Stream policy backend script
            (.ok { phase := .completed, executed := 0, failed := 0 }) _ :=
          .completed rfl blocks
        rw [← List.append_assoc] at completed
        rw [List.append_nil]
        exact .unended endless completed
    · cases verdict with
      | goOn => exact ended.elim
      | halted =>
          obtain ⟨reason, rfl⟩ := ended
          exact emits_finish keeps fun summary phase_eq => .halted phase_eq cut
      | cancelled =>
          obtain rfl := ended
          exact emits_finish keeps fun summary phase_eq => .cancelled phase_eq cut
  · rintro stop events (⟨no_stop, -⟩ | ⟨cut, ended⟩)
    · contradiction
    · exact stream_of_stop cut ended

theorem emits_rethrown {α : Type} (stop : Stop) :
    Run.Emits (do
      match stop with
      | .failed _ => Run.discardSession
      | _ => pure ()
      throw stop : Run α) fun result back => result = .error stop ∧ back = [] := by
  cases stop with
  | failed failure =>
      exact Run.emits_passes_bind Run.passes_discardSession fun _ => Run.emits_throw ⟨rfl, rfl⟩
  | stalled | uncounted =>
      exact Run.emits_passes_bind (Run.passes_pure ()) fun _ => Run.emits_throw ⟨rfl, rfl⟩

/-- Letting the session of a failed run go emits nothing more. -/
theorem emits_guarded {α : Type} {action : Run α} {emitted : Except Stop α → List Event → Prop}
    (emits : action.Emits emitted) : (guarded action).Emits emitted := by
  intro state received
  refine Run.ensures_tryCatch.mpr ((emits state received).mono fun result middle holds => ?_)
  cases result with
  | ok value => exact holds
  | error stop =>
      obtain ⟨received_middle, events, events_eq, emitted_events⟩ := holds
      refine (emits_rethrown stop middle received_middle).mono fun result after holds => ?_
      obtain ⟨received_after, back, back_eq, rfl, rfl⟩ := holds
      refine ⟨received_after, events, ?_, emitted_events⟩
      rw [back_eq, List.append_nil, events_eq]

/-- The events of a run whose receiver stays form a stream of the grammar. -/
theorem stream_of_run (policy : Retry.Policy) {backend : Backend} (script : Script)
    {audience : Audience} (received : audience.room = none) (keeps : backend.KeepsReceiver) :
    Stream policy backend script (run policy backend script audience).result
      (run policy backend script audience).events := by
  have emits := emits_guarded (emits_script policy keeps script)
  obtain ⟨-, events, events_eq, stream⟩ := emits { toAudience := audience } received
  have events_eq' : (run policy backend script audience).events = events := events_eq
  rw [events_eq']
  exact stream

theorem mem_iff_of_isTerminal {front : List Event} {last event : Event}
    (front_open : ∀ event ∈ front, event.isTerminal = false) (terminal : event.isTerminal = true) :
    event ∈ front ++ [last] ↔ event = last := by
  constructor
  · intro member
    rcases List.mem_append.mp member with in_front | in_last
    · simp [front_open event in_front] at terminal
    · exact List.mem_singleton.mp in_last
  · rintro rfl
    simp

theorem ended_of_returns {policy : Retry.Policy} {backend : Backend} {script : Script}
    {outcome : Outcome} (stream : Stream policy backend script outcome.result outcome.events)
    (returns : backend.Returns) (limited : policy.maxRetries + 1 ≠ 0) : outcome.Ended := by
  intro stop result_eq
  rw [result_eq] at stream
  rcases stream.ended_or_endless with failed | endless
  · exact failed
  · cases stop with
    | failed failure => exact endless.elim
    | stalled => exact (endless returns).elim
    | uncounted => exact (limited endless).elim

/-- As long as its receiver stays, a run emits a stream of the grammar.  A run that comes to an end
has emitted one terminal event as its last, which tells how the run ended; and it comes to an end if
the calls of the backend return. -/
theorem events_of_run (policy : Retry.Policy) {backend : Backend} (script : Script)
    {audience : Audience} (received : audience.room = none) (keeps : backend.KeepsReceiver) :
    let outcome := run policy backend script audience
    Stream policy backend script outcome.result outcome.events ∧
      (backend.Returns → policy.maxRetries + 1 ≠ 0 → outcome.Ended) ∧
      (outcome.Ended →
        (∃ front last, outcome.events = front ++ [last] ∧ last.isTerminal = true ∧
          ∀ event ∈ front, event.isTerminal = false) ∧
        ((∃ summary, .scriptCompleted summary ∈ outcome.events) ↔
          ∃ summary, outcome.result = .ok summary ∧ summary.phase = .completed) ∧
        ((∃ index, .scriptCancelled index ∈ outcome.events) ↔
          ∃ summary, outcome.result = .ok summary ∧ summary.phase = .cancelled) ∧
        ((∃ index reason, .scriptHalted index reason ∈ outcome.events) ↔
          (∃ summary, outcome.result = .ok summary ∧ summary.phase = .halted) ∨
            ∃ failure, outcome.result = .error (.failed failure))) := by
  intro outcome
  have stream := stream_of_run policy script received keeps
  refine ⟨stream, ended_of_returns stream, fun ended => ?_⟩
  obtain ⟨front, last, events_eq, front_open, announces⟩ := stream.announced ended
  have mem_iff (event : Event) (terminal : event.isTerminal = true) :
      event ∈ outcome.events ↔ event = last := by
    rw [events_eq]
    exact mem_iff_of_isTerminal front_open terminal
  refine ⟨⟨front, last, events_eq, announces.isTerminal, front_open⟩, ?_, ?_, ?_⟩
  · rw [← announces.completed_iff]
    exact exists_congr fun summary => mem_iff _ rfl
  · rw [← announces.cancelled_iff]
    exact exists_congr fun index => mem_iff _ rfl
  · rw [← announces.halted_iff]
    exact exists_congr fun index => exists_congr fun reason => mem_iff _ rfl

theorem events_of_prompt_run :
    let backend := Backend.ofLists [] [] []
    let script : Script :=
      { batches := #[{ (default : Batch) with text := "SELECT 1", repeatCount := 2 }]
        trailingMessages := ["done"]
        outputTargets := {} }
    let outcome := run .usual backend script {}
    ({} : Audience).room = none ∧ backend.KeepsReceiver ∧
      Stream .usual backend script outcome.result outcome.events ∧
        ∃ front last, outcome.events = front ++ [last] ∧ last.isTerminal = true := by
  intro backend script outcome
  have keeps : backend.KeepsReceiver := ⟨fun _ => trivial, fun _ => trivial, fun _ => trivial⟩
  have returns : backend.Returns := ⟨fun _ => trivial, fun _ => trivial, fun _ => trivial⟩
  have received : ({} : Audience).room = none := rfl
  obtain ⟨stream, ends, announced⟩ := events_of_run .usual script received keeps
  obtain ⟨⟨front, last, events_eq, terminal, -⟩, -⟩ := announced (ends returns (by decide))
  exact ⟨received, keeps, stream, front, last, events_eq, terminal⟩

end Engine
end SqlScript
