import SqlScript.Engine
import SqlScript.Proofs.Engine.Waiting

/-!
# The grammar of event streams

A run tells of the instances of its script one after the other, in blocks of events, and ends with
one terminal event.  The grammar is stated without regard to sessions, attempts and notices.
-/

namespace SqlScript

/-- All the times a batch is to be run. -/
def Batch.instances (batch : Batch) : List Engine.Instance :=
  (List.range' 1 batch.repeatCount).map fun repetition => { batch, repetition }

/-- All that a script runs, in order; blank batches are not run. -/
def Script.instances (script : Script) : List Engine.Instance :=
  script.runnable.flatMap Batch.instances

namespace Engine
namespace Instance

variable (target : Instance)

/-- The events with which an instance begins.  Messages of the script come before the first time
only. -/
def opening : List Event :=
  .batchStarted target.batch.index target.repetition target.batch.repeatCount target.batch.span ::
    if target.repetition = 1 then
      target.batch.preamble.map fun text => .message (some target.batch.index) text
    else []

/-- Messages and errors of the instance. -/
def Concerns : Event → Prop
  | .message batch _ => batch = some target.batch.index
  | .error batch repetition _ => batch = target.batch.index ∧ repetition = target.repetition
  | _ => False

/-- All events of an instance that was completed. -/
inductive Block : List Event → Prop
  | intro {inner : List Event} (result : BatchResult) :
      (∀ event ∈ inner, target.Concerns event) →
        Block (target.opening ++
          (inner ++ [.batchCompleted target.batch.index target.repetition result]))

/-- The events of an instance that was begun but not completed. -/
inductive Begun : List Event → Prop
  | intro {inner : List Event} :
      (∀ event ∈ inner, target.Concerns event) → Begun (target.opening ++ inner)

end Instance

/-- The events of instances all of which were completed. -/
inductive Blocks : List Instance → List Event → Prop
  | nil : Blocks [] []
  | cons {target : Instance} {targets : List Instance} {block events : List Event} :
      target.Block block → Blocks targets events → Blocks (target :: targets) (block ++ events)

/-- The events of instances that were completed up to `last`, which was not. -/
inductive CutOff (last : Instance) : List Instance → List Event → Prop
  | unbegun {targets : List Instance} : CutOff last (last :: targets) []
  | begun {targets : List Instance} {events : List Event} :
      last.Begun events → CutOff last (last :: targets) events
  | later {target : Instance} {targets : List Instance} {block events : List Event} :
      target.Block block → CutOff last targets events →
        CutOff last (target :: targets) (block ++ events)

/-- Why a run that fails in the batch `index` is said to be halted. -/
inductive HaltReason (index : Nat) : RunError → String → Prop
  | connection {failure : SessionError} :
      HaltReason index (.connection failure) ("failed to open a session: " ++ failure.message)
  | internal {message : String} {span : Span} {phase : Phase} :
      HaltReason index (.internal message index span phase)
        (RunError.internal message index span phase).message

/-- The events of a run with a given result. -/
inductive Stream (policy : Retry.Policy) (backend : Backend) (script : Script) :
    Except Stop Summary → List Event → Prop
  | completed {summary : Summary} {events : List Event} :
      summary.phase = .completed → Blocks script.instances events →
        Stream policy backend script (.ok summary)
          (events ++ (script.trailingMessages.map (fun text => .message none text) ++
            [.scriptCompleted summary]))
  | cancelled {summary : Summary} {last : Instance} {events : List Event} :
      summary.phase = .cancelled → CutOff last script.instances events →
        Stream policy backend script (.ok summary) (events ++ [.scriptCancelled last.batch.index])
  | halted {summary : Summary} {last : Instance} {events : List Event} {reason : String} :
      summary.phase = .halted → CutOff last script.instances events →
        Stream policy backend script (.ok summary)
          (events ++ [.scriptHalted last.batch.index reason])
  | failed {failure : RunError} {last : Instance} {events : List Event} {reason : String} :
      HaltReason last.batch.index failure reason → CutOff last script.instances events →
        Stream policy backend script (.error (.failed failure))
          (events ++ [.scriptHalted last.batch.index reason])
  /-- A run that never ends has emitted the beginning of what another run emits. -/
  | unended {stop : Stop} {result : Except Stop Summary} {events rest : List Event} :
      stop.Endless policy backend → Stream policy backend script result (events ++ rest) →
        Stream policy backend script (.error stop) events

theorem Blocks.append {targets targets' : List Instance} {events events' : List Event}
    (front : Blocks targets events) (back : Blocks targets' events') :
    Blocks (targets ++ targets') (events ++ events') := by
  induction front with
  | nil => exact back
  | cons block _ ih =>
      rw [List.cons_append, List.append_assoc]
      exact .cons block ih

theorem CutOff.append_right {last : Instance} {targets : List Instance} {events : List Event}
    (front : CutOff last targets events) (targets' : List Instance) :
    CutOff last (targets ++ targets') events := by
  induction front with
  | unbegun => exact .unbegun
  | begun begun => exact .begun begun
  | later block _ ih => exact .later block ih

theorem CutOff.append_left {last : Instance} {targets targets' : List Instance}
    {events events' : List Event} (front : Blocks targets events)
    (back : CutOff last targets' events') :
    CutOff last (targets ++ targets') (events ++ events') := by
  induction front with
  | nil => exact back
  | cons block _ ih =>
      rw [List.cons_append, List.append_assoc]
      exact .later block ih

namespace Instance

variable {target : Instance}

theorem not_isTerminal_opening (target : Instance) :
    ∀ event ∈ target.opening, event.isTerminal = false := by
  unfold opening
  split <;> simp [Event.isTerminal]

theorem Concerns.not_isTerminal {event : Event} (concerns : target.Concerns event) :
    event.isTerminal = false := by
  cases event <;> first | rfl | exact concerns.elim

theorem Block.not_isTerminal {events : List Event} (block : target.Block events) :
    ∀ event ∈ events, event.isTerminal = false := by
  obtain ⟨result, concerns⟩ := block
  simp only [List.forall_mem_append, List.forall_mem_singleton]
  exact ⟨not_isTerminal_opening target, fun event member => (concerns event member).not_isTerminal,
    rfl⟩

theorem Begun.not_isTerminal {events : List Event} (begun : target.Begun events) :
    ∀ event ∈ events, event.isTerminal = false := by
  obtain ⟨concerns⟩ := begun
  exact List.forall_mem_append.mpr
    ⟨not_isTerminal_opening target, fun event member => (concerns event member).not_isTerminal⟩

end Instance

theorem Blocks.not_isTerminal {targets : List Instance} {events : List Event}
    (blocks : Blocks targets events) : ∀ event ∈ events, event.isTerminal = false := by
  induction blocks with
  | nil => simp
  | cons block _ ih => exact List.forall_mem_append.mpr ⟨block.not_isTerminal, ih⟩

theorem CutOff.not_isTerminal {last : Instance} {targets : List Instance} {events : List Event}
    (cut : CutOff last targets events) : ∀ event ∈ events, event.isTerminal = false := by
  induction cut with
  | unbegun => simp
  | begun begun => exact begun.not_isTerminal
  | later block _ ih => exact List.forall_mem_append.mpr ⟨block.not_isTerminal, ih⟩

/-- The terminal event of a run that has ended with a given result. -/
inductive Announces : Except Stop Summary → Event → Prop
  | completed {summary : Summary} :
      summary.phase = .completed → Announces (.ok summary) (.scriptCompleted summary)
  | cancelled {summary : Summary} {index : Nat} :
      summary.phase = .cancelled → Announces (.ok summary) (.scriptCancelled index)
  | halted {summary : Summary} {index : Nat} {reason : String} :
      summary.phase = .halted → Announces (.ok summary) (.scriptHalted index reason)
  | failed {failure : RunError} {index : Nat} {reason : String} :
      HaltReason index failure reason →
        Announces (.error (.failed failure)) (.scriptHalted index reason)

theorem Announces.isTerminal {result : Except Stop Summary} {event : Event}
    (announces : Announces result event) : event.isTerminal = true := by
  cases announces <;> rfl

theorem Announces.completed_iff {result : Except Stop Summary} {event : Event}
    (announces : Announces result event) :
    (∃ summary, .scriptCompleted summary = event) ↔
      ∃ summary, result = .ok summary ∧ summary.phase = .completed := by
  cases announces with
  | completed phase_eq => simp [phase_eq]
  | cancelled phase_eq => simp [phase_eq]
  | halted phase_eq => simp [phase_eq]
  | failed => simp

theorem Announces.cancelled_iff {result : Except Stop Summary} {event : Event}
    (announces : Announces result event) :
    (∃ index, .scriptCancelled index = event) ↔
      ∃ summary, result = .ok summary ∧ summary.phase = .cancelled := by
  cases announces with
  | completed phase_eq => simp [phase_eq]
  | cancelled phase_eq => simp [phase_eq]
  | halted phase_eq => simp [phase_eq]
  | failed => simp

theorem Announces.halted_iff {result : Except Stop Summary} {event : Event}
    (announces : Announces result event) :
    (∃ index reason, .scriptHalted index reason = event) ↔
      (∃ summary, result = .ok summary ∧ summary.phase = .halted) ∨
        ∃ failure, result = .error (.failed failure) := by
  cases announces with
  | completed phase_eq => simp [phase_eq]
  | cancelled phase_eq => simp [phase_eq]
  | halted phase_eq => simp [phase_eq]
  | failed => simp

/-- The run has come to its end. -/
def Outcome.Ended (outcome : Outcome) : Prop :=
  ∀ stop, outcome.result = .error stop → ∃ failure, stop = .failed failure

theorem Stream.ended_or_endless {policy : Retry.Policy} {backend : Backend} {script : Script}
    {stop : Stop} {events : List Event}
    (stream : Stream policy backend script (.error stop) events) :
    (∃ failure, stop = .failed failure) ∨ stop.Endless policy backend := by
  cases stream with
  | failed => exact .inl ⟨_, rfl⟩
  | unended endless => exact .inr endless

/-- A run whose receiver stays does not fail for want of it. -/
theorem Stream.not_receiverGone {policy : Retry.Policy} {backend : Backend} {script : Script}
    {result : Except Stop Summary} {events : List Event}
    (stream : Stream policy backend script result events) :
    result ≠ .error (.failed .receiverGone) := by
  rintro rfl
  cases stream with
  | failed reason => cases reason
  | unended endless => exact endless.elim

/-- A stream has one terminal event, which is its last. -/
theorem Stream.announced {policy : Retry.Policy} {backend : Backend} {script : Script}
    {result : Except Stop Summary} {events : List Event}
    (stream : Stream policy backend script result events)
    (ended : ∀ stop, result = .error stop → ∃ failure, stop = .failed failure) :
    ∃ front last, events = front ++ [last] ∧ (∀ event ∈ front, event.isTerminal = false) ∧
      Announces result last := by
  cases stream with
  | completed phase_eq blocks =>
      refine ⟨_, _, (List.append_assoc _ _ _).symm, ?_, .completed phase_eq⟩
      refine List.forall_mem_append.mpr ⟨blocks.not_isTerminal, fun event member => ?_⟩
      obtain ⟨text, -, rfl⟩ := List.mem_map.mp member
      rfl
  | cancelled phase_eq cut => exact ⟨_, _, rfl, cut.not_isTerminal, .cancelled phase_eq⟩
  | halted phase_eq cut => exact ⟨_, _, rfl, cut.not_isTerminal, .halted phase_eq⟩
  | failed halt_reason cut => exact ⟨_, _, rfl, cut.not_isTerminal, .failed halt_reason⟩
  | unended endless =>
      obtain ⟨failure, rfl⟩ := ended _ rfl
      exact endless.elim

end Engine
end SqlScript
