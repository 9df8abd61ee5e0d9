import SqlScript.Proofs.Engine.Compliance

/-!
# Notices of batches

Every notice of a call is told once, in the order in which they were sent, and the result of an
instance keeps those of its last call.  Behind them the result keeps the error of the server with
which the call ended.
-/

namespace SqlScript
namespace Notice

/-- The text of a message. -/
def message? : Notice → Option String
  | message text => some text
  | error _ => none

/-- The error that is reported. -/
def error? : Notice → Option ServerError
  | message _ => none
  | error failure => some failure

end Notice

namespace BatchResult

/-- The server error that a call returned, if it returned one. -/
def returned : Except SessionError (Option Nat) → List ServerError
  | .error (.server failure) => [failure]
  | _ => []

/-- The result keeps all that the server reported during a call. -/
structure Keeps (notices : List Notice) (final : Except SessionError (Option Nat))
    (result : BatchResult) : Prop where
  messages_eq : result.messages = notices.filterMap Notice.message?
  errors_eq : result.errors = notices.filterMap Notice.error? ++ returned final

variable {notices : List Notice} {final : Except SessionError (Option Nat)}

/-- Notices change nothing of a result but what it lists. -/
theorem foldl_record (notices : List Notice) (result : BatchResult) :
    notices.foldl record result =
      { result with
        errors := result.errors ++ notices.filterMap Notice.error?
        messages := result.messages ++ notices.filterMap Notice.message? } := by
  induction notices generalizing result with
  | nil => simp
  | cons notice notices induction =>
      rw [List.foldl_cons, induction]
      cases notice <;> simp [record, Notice.error?, Notice.message?, List.filterMap_cons]

/-- However a call ended, its result keeps all that was reported during it. -/
theorem keeps_ofCall (notices : List Notice) (final : Except SessionError (Option Nat)) :
    (ofCall notices final).Keeps notices final := by
  cases final with
  | ok rows =>
      rw [ofCall, foldl_record]
      exact ⟨rfl, (List.append_nil _).symm⟩
  | error failure =>
      rw [ofCall, foldl_record]
      cases failure with
      | server failure => exact ⟨rfl, rfl⟩
      | _ => exact ⟨rfl, (List.append_nil _).symm⟩

theorem Keeps.classify {result : BatchResult} (keeps : result.Keeps notices final) :
    result.classify.Keeps notices final :=
  ⟨keeps.messages_eq, keeps.errors_eq⟩

end BatchResult

namespace Engine

open Trace

variable {scenario : Scenario} {front back : List Entry} {final : Machine}

/-- Where an instance is completed. -/
theorem Move.complete_origin {machine machine' : Machine} {index repetition : Nat}
    {result : BatchResult}
    (move : Move scenario machine (some (.event (.batchCompleted index repetition result)))
      machine') :
    ∃ target, machine.stage = .reporting target result ∧ target.batch.index = index ∧
      target.repetition = repetition := by
  generalize label_eq : some (Entry.event (.batchCompleted index repetition result)) = label at move
  cases move with
  | @complete target result stage_eq =>
      simp only [Option.some.injEq, Entry.event.injEq, Event.batchCompleted.injEq] at label_eq
      obtain ⟨rfl, rfl, rfl⟩ := label_eq
      exact ⟨target, stage_eq, rfl, rfl⟩
  | @forward target attempt call sent notice =>
      cases notice <;> simp [Instance.eventOf] at label_eq
  | @report target attempt call failure =>
      cases failure <;> simp [Instance.failureEvent, Instance.eventOf] at label_eq
  | _ => simp [Instance.started] at label_eq

/-- An instance is completed with the result of the last call that was made since it began. -/
theorem Path.keeps_of_complete {index repetition : Nat} {result : BatchResult}
    (path : Path scenario (.start scenario.script)
      (front ++ .event (.batchCompleted index repetition result) :: back) final) :
    ∃ target ∈ scenario.script.instances, target.batch.index = index ∧
      target.repetition = repetition ∧ ∃ before since call returned,
        Underway front before target since ∧ executed since ≠ [] ∧
          (executed front).length = call + 1 ∧
          (scenario.backend.executing call).outcome? = some returned ∧
            result.Keeps (scenario.backend.executing call).notices returned := by
  obtain ⟨machine, _, to_machine, move, -⟩ := path.split rfl
  obtain ⟨target, stage_eq, index_eq, repetition_eq⟩ := move.complete_origin
  have befits := to_machine.befits
  rw [stage_eq] at befits
  obtain ⟨_, before, since, setbacks, submitted, told, story, ⟨⟩⟩ := befits
  rename_i returned settles
  have calls_eq : (executed since).length = setbacks.length + 1 := story.calls_eq
  refine ⟨target, story.known, index_eq, repetition_eq, before, since,
    (executed before).length + setbacks.length, returned, story.toUnderway, ?_, ?_, settles.1,
    (BatchResult.keeps_ofCall _ _).classify⟩
  · rintro none_executed
    simp [none_executed] at calls_eq
  · rw [story.trace_eq, executed_append, List.length_append, Nat.add_assoc, ← calls_eq]
    rfl

/-- In a run whose receiver stays, every batch that is submitted is heard out: behind the call, the
run tells the notices that the call sent before it returned, or before a request to cancel the run
was noticed during it, and then what became of the call.  An instance is completed with the notices
and the returned server error of its last call. -/
theorem notices_of_run {policy : Retry.Policy} {backend : Backend} (script : Script)
    {audience : Audience} (received : audience.room = none) (keeps : backend.KeepsReceiver) :
    let scenario : Scenario := { policy, backend, script }
    let outcome := run policy backend script audience
    (∀ front session text back, outcome.trace = front ++ .call (.execute session text) :: back →
      Heard scenario audience (outcome.result.map Summary.phase) front text back) ∧
    ∀ front index repetition result back,
      outcome.trace = front ++ .event (.batchCompleted index repetition result) :: back →
        ∃ target ∈ script.instances, target.batch.index = index ∧
          target.repetition = repetition ∧ ∃ before since call returned,
            Underway front before target since ∧ executed since ≠ [] ∧
              (executed front).length = call + 1 ∧
              (backend.executing call).outcome? = some returned ∧
                result.Keeps (backend.executing call).notices returned := by
  intro scenario outcome
  refine ⟨fun front session text back trace_eq => heard_of_run script received keeps trace_eq, ?_⟩
  intro front index repetition result back trace_eq
  obtain ⟨machine, path, -⟩ := path_of_run policy backend script audience
  rw [show (run policy backend script audience).trace = _ from trace_eq] at path
  exact path.keeps_of_complete

theorem notices_of_warned_run :
    let warning : ServerError := { number := 50000, severity := 10, message := "low" }
    let failure : ServerError := { number := 50001, severity := 10, message := "late" }
    let behavior : Behavior :=
      .notify (.message "working") (.yield (.notify (.error warning)
        (.finish (.error (.server failure)))))
    let backend := Backend.ofLists [] [behavior] []
    let script : Script :=
      { batches := #[{ (default : Batch) with text := "a", repeatCount := 1 }]
        trailingMessages := []
        outputTargets := {} }
    let scenario : Scenario := { policy := .usual, backend, script }
    let outcome := run .usual backend script {}
    (({} : Audience).room = none ∧ backend.KeepsReceiver) ∧
      (∃ front back, outcome.trace = front ++ .call (.execute 1 "a") :: back ∧
        Heard scenario {} (outcome.result.map Summary.phase) front "a" back) ∧
      ∃ front result back, outcome.trace = front ++ .event (.batchCompleted 0 1 result) :: back ∧
        result.Keeps [.message "working", .error warning] (.error (.server failure)) := by
  intro warning failure behavior backend script scenario outcome
  have received : ({} : Audience).room = none := rfl
  have keeps : backend.KeepsReceiver := by
    refine ⟨fun _ => trivial, fun call => ?_, fun _ => trivial⟩
    cases call <;> exact trivial
  obtain ⟨hears, completes⟩ := @notices_of_run .usual _ script _ received keeps
  let position : Position := (default : Batch).start
  let result : BatchResult :=
    { success := true, errors := [warning, failure], messages := ["working"] }
  let begun : List Entry :=
    [.event (.batchStarted 0 1 1 (default : Batch).span), .call (.openSession none)]
  let told : List Entry :=
    [.event (.message (some 0) "working"), .event (.error 0 1 (.server warning position)),
      .event (.error 0 1 (.server failure position))]
  let behind : List Entry :=
    [.call (.close 1),
      .event (.scriptCompleted { phase := .completed, executed := 1, failed := 0 })]
  have submits : outcome.trace = begun ++ .call (.execute 1 "a") ::
      (told ++ .event (.batchCompleted 0 1 result) :: behind) := by
    decide +kernel
  have finishes : outcome.trace = (begun ++ .call (.execute 1 "a") :: told) ++
      .event (.batchCompleted 0 1 result) :: behind :=
    submits
  obtain ⟨target, known, -, -, before, since, call, returned, -, -, call_eq, outcome_eq, kept⟩ :=
    completes _ _ _ _ _ finishes
  obtain rfl : call = 0 := Nat.succ.inj call_eq.symm
  obtain rfl : returned = .error (.server failure) := (Option.some.inj outcome_eq).symm
  exact ⟨⟨received, keeps⟩, ⟨begun, _, submits, hears _ _ _ _ submits⟩, _, result, _, finishes,
    kept⟩

end Engine
end SqlScript
