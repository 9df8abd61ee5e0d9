import SqlScript.Proofs.Engine.Compliance

/-!
# Runs that are asked to be cancelled

Once a run is asked to be cancelled it begins nothing, and once it said that it is cancelled it says
nothing.  It is still completed if it had begun everything when it was asked.  A backend that gives
a batch up because the run is to be cancelled is believed if the engine has a turn in between.
-/

namespace SqlScript
namespace Engine

open Trace

variable {scenario : Scenario} {machine machine' : Machine} {label : Option Entry}
  {trace : List Entry}

/-- The events that announce instances, in order. -/
def Trace.begun (trace : List Entry) : List Event :=
  trace.filterMap fun entry =>
    match entry with
    | .event (.batchStarted index repetition repeatCount span) =>
        some (.batchStarted index repetition repeatCount span)
    | _ => none

theorem Trace.begun_append (trace more : List Entry) :
    begun (trace ++ more) = begun trace ++ begun more :=
  List.filterMap_append

theorem Trace.begun_eq_nil {marks : Entry → Bool}
    (marks_start : ∀ index repetition repeatCount span,
      marks (.event (.batchStarted index repetition repeatCount span)) = true)
    (none_marked : ∀ entry ∈ trace, marks entry = false) : begun trace = [] := by
  refine List.filterMap_eq_nil_iff.mpr fun entry member => ?_
  have unmarked := none_marked entry member
  split
  · simp [marks_start] at unmarked
  · rfl

/-- Instances are announced in the order in which they were to be run. -/
theorem Move.begun (move : Move scenario machine label machine') :
    begun label.toList ++ machine'.todo.map Instance.started =
      machine.todo.map Instance.started := by
  cases move with
  | start stage_eq todo_eq => simp [Trace.begun, Instance.started, todo_eq]
  | @forward target attempt call sent notice => cases notice <;> rfl
  | @report target attempt call failure => cases failure <;> rfl
  | @replace target attempt tries session =>
      rcases scenario.backend.release_eq session.number with release_eq | release_eq <;>
        rw [release_eq] <;> rfl
  | @release phase session =>
      rcases scenario.backend.release_eq session.number with release_eq | release_eq <;>
        rw [release_eq] <;> rfl
  | _ => rfl

theorem Path.begun (path : Path scenario (.start scenario.script) trace machine) :
    begun trace ++ machine.todo.map Instance.started =
      scenario.script.instances.map Instance.started := by
  induction path with
  | nil => rfl
  | snoc _ move induction => rw [begun_append, List.append_assoc, move.begun, induction]

/-- At the regular end of a script no instance is left. -/
def Machine.Exhausted (machine : Machine) : Prop :=
  match machine.stage with
  | .trailing _ | .ending .completed | .finished => machine.todo = []
  | _ => True

theorem Move.exhausted (move : Move scenario machine label machine')
    (exhausted : machine.Exhausted) : machine'.Exhausted := by
  cases move with
  | trail stage_eq todo_eq => exact todo_eq
  | replace | discard | release => exact exhausted
  | remark stage_eq | wind stage_eq | conclude stage_eq =>
      unfold Machine.Exhausted at exhausted
      rw [stage_eq] at exhausted
      exact exhausted
  | _ => trivial

theorem Path.exhausted (path : Path scenario (.start scenario.script) trace machine) :
    machine.Exhausted := by
  induction path with
  | nil => trivial
  | snoc _ move induction => exact move.exhausted induction

/-- Nothing is said any more. -/
def Stage.Silent (stage : Stage) : Prop :=
  stage = .ending .cancelled ∨ stage = .lost

theorem Move.silent (move : Move scenario machine label machine')
    (silent : machine.stage.Silent) :
    machine'.stage.Silent ∧ label.toList.filterMap Entry.event? = [] := by
  have no_target : machine.stage.target? = none := by
    rcases silent with stage_eq | stage_eq <;> rw [stage_eq] <;> rfl
  cases move with
  | lose => exact ⟨.inr rfl, rfl⟩
  | release => exact ⟨silent, rfl⟩
  | leave interrupted =>
      rcases interrupted with idles | ⟨waits, -⟩
      · simp [idles.target?_eq] at no_target
      · simp [waits.target?_eq] at no_target
  | letGo waits => simp [waits.target?_eq] at no_target
  | _ => simp_all [Stage.Silent]

theorem Path.silent {initial : Machine} (path : Path scenario initial trace machine)
    (silent : initial.stage.Silent) :
    machine.stage.Silent ∧ trace.filterMap Entry.event? = [] := by
  induction path with
  | nil => exact ⟨silent, rfl⟩
  | snoc _ move induction =>
      obtain ⟨silent, nothing⟩ := move.silent induction.1
      exact ⟨silent, by rw [List.filterMap_append, induction.2, nothing, List.append_nil]⟩

/-- A run that said that it is cancelled says nothing more. -/
theorem Path.last_of_cancelled {front back : List Entry} {index : Nat}
    (path : Path scenario (.start scenario.script)
      (front ++ .event (.scriptCancelled index) :: back) machine) :
    back.filterMap Entry.event? = [] := by
  obtain ⟨before, after, -, move, behind⟩ := path.split rfl
  have leaves : after.stage = .ending .cancelled := by
    generalize label_eq : some (Entry.event (.scriptCancelled index)) = label at move
    cases move with
    | cancel => rfl
    | @forward target attempt call sent notice =>
        cases notice <;> simp [Instance.eventOf] at label_eq
    | @report target attempt call failure =>
        cases failure <;> simp [Instance.failureEvent, Instance.eventOf] at label_eq
    | _ => simp [Instance.started] at label_eq
  exact (behind.silent (.inl leaves)).2

/-- Behind a request nothing begins. -/
theorem Trace.Obeys.quiet {backend : Backend} {audience : Audience} {front back : List Entry}
    (obeys : Obeys backend audience (front ++ back))
    (requested : Requested backend audience front) :
    ∀ entry ∈ back, entry.begins = false := by
  intro entry member
  obtain ⟨between, behind, rfl⟩ := List.append_of_mem member
  refine Bool.eq_false_iff.mpr fun begins => ?_
  exact obeys.begins _ entry behind (List.append_assoc _ _ _).symm begins (requested.append between)

/-- A run that is completed has announced all its instances. -/
theorem Path.begun_of_completed {result : Except Stop Summary}
    (path : Path scenario (.start scenario.script) trace machine)
    (ends : machine.Ends scenario result)
    (completed : result.map Summary.phase = .ok .completed) :
    Trace.begun trace = scenario.script.instances.map Instance.started := by
  have all_begun := path.begun
  have exhausted := path.exhausted
  cases result with
  | error stop => contradiction
  | ok summary =>
      rcases ends.2 with ⟨stage_eq, -⟩ | ⟨-, other⟩
      · unfold Machine.Exhausted at exhausted
        rw [stage_eq] at exhausted
        rw [← all_begun, show machine.todo = [] from exhausted]
        exact (List.append_nil _).symm
      · exact absurd (Except.ok.inj completed) other

/-- Where an event of a trace was sent, with the events behind it. -/
theorem Trace.split_at_event {earlier later : List Event} {event : Event}
    (events_eq : trace.filterMap Entry.event? = earlier ++ event :: later) :
    ∃ front back, trace = front ++ .event event :: back ∧ back.filterMap Entry.event? = later := by
  obtain ⟨before, behind, rfl, -, behind_eq⟩ := List.filterMap_eq_append_iff.mp events_eq
  obtain ⟨between, entry, back, rfl, -, entry_eq, back_eq⟩ :=
    List.filterMap_eq_cons_iff.mp behind_eq
  cases entry with
  | call => contradiction
  | event sent =>
      obtain rfl := Option.some.inj entry_eq
      exact ⟨before ++ between, back, (List.append_assoc _ _ _).symm, back_eq⟩

/-- A run that is asked to be cancelled, before it starts or during any of its calls, begins nothing
behind the request, and is completed only if all its instances were announced before.  Whatever
run says that it is cancelled says so once and as the last thing. -/
theorem cancellation_of_run (policy : Retry.Policy) (backend : Backend) (script : Script)
    (audience : Audience) :
    let outcome := run policy backend script audience
    (∀ front back, outcome.trace = front ++ back → Requested backend audience front →
      (∀ entry ∈ back, entry.begins = false) ∧
        (outcome.result.map Summary.phase = .ok .completed →
          begun front = script.instances.map Instance.started)) ∧
    ∀ front index back, outcome.events = front ++ .scriptCancelled index :: back → back = [] := by
  intro outcome
  obtain ⟨machine, path, ends⟩ := path_of_run policy backend script audience
  refine ⟨fun front back trace_eq requested => ?_, fun front index back events_eq => ?_⟩
  · have obeys := (sound_of_run policy backend script audience).obeys
    rw [show (run policy backend script audience).trace = _ from trace_eq] at obeys path
    have quiet := obeys.quiet requested
    refine ⟨quiet, fun completed => ?_⟩
    have all_begun := path.begun_of_completed ends completed
    rwa [begun_append, begun_eq_nil (fun _ _ _ _ => rfl) quiet, List.append_nil] at all_begun
  · -- The path behind the entry says nothing, whatever led to it.
    obtain ⟨earlier, later, trace_eq, later_eq⟩ := split_at_event events_eq
    rw [show (run policy backend script audience).trace = _ from trace_eq] at path
    rw [← later_eq]
    exact path.last_of_cancelled

/-- The event ends the run, and no other event does. -/
def Outcome.EndsWith (outcome : Outcome) (last : Event) : Prop :=
  ∃ front, outcome.events = front ++ [last] ∧ ∀ event ∈ front, event.isTerminal = false

/-- The run was cancelled while it ran the instance. -/
structure Outcome.CancelledIn (outcome : Outcome) (target : Instance) : Prop where
  phase_eq : outcome.result.map Summary.phase = .ok .cancelled
  ends : outcome.EndsWith (.scriptCancelled target.batch.index)

/-- The run failed because the backend gave the batch up without being asked. -/
structure Outcome.RefusedIn (outcome : Outcome) (target : Instance) : Prop where
  result_eq : outcome.result = .error (.failed target.refusalError)
  ends : outcome.EndsWith (.scriptHalted target.batch.index target.refusal)

/-- The last thing that is said by a run that has ended is what ends it. -/
theorem Stream.endsWith {policy : Retry.Policy} {backend : Backend} {script : Script}
    {outcome : Outcome} (stream : Stream policy backend script outcome.result outcome.events)
    (ended : outcome.Ended) {front more : List Entry} {event : Event}
    (trace_eq : outcome.trace = front ++ more) (last : more.filterMap Entry.event? = [event]) :
    outcome.EndsWith event := by
  obtain ⟨earlier, final, events_eq, earlier_open, -⟩ := stream.announced ended
  have events_eq' : outcome.events = front.filterMap Entry.event? ++ [event] := by
    rw [Outcome.events, trace_eq, List.filterMap_append, last]
  obtain ⟨rfl, -⟩ := List.append_inj' (events_eq.symm.trans events_eq') rfl
  exact ⟨_, events_eq', earlier_open⟩

/-- A call that says that it was cancelled was interrupted, or the run fails. -/
theorem Sequel.of_gives_up {target : Instance} {call : Nat} {result : Except Stop Phase}
    {patience : Option Nat} {events : List Event}
    (sequel : Sequel scenario target call result
      ((scenario.backend.executing call).ending patience) events)
    (gives_up : (scenario.backend.executing call).outcome? = some (.error .cancelled)) :
    (scenario.backend.executing call).ending patience = .interrupted ∧ result = .ok .cancelled ∧
        events = [.scriptCancelled target.batch.index] ∨
      (scenario.backend.executing call).ending patience = .returned (.error .cancelled) ∧
        result = .error (.failed target.refusalError) ∧
          events = [.scriptHalted target.batch.index target.refusal] := by
  generalize ends : (scenario.backend.executing call).ending patience = ending at sequel
  cases sequel with
  | settled not_cancelled =>
      have returned := (Behavior.of_returned ends).1
      exact absurd (Option.some.inj (returned.symm.trans gives_up)) not_cancelled
  | retried not_cancelled =>
      have returned := (Behavior.of_returned ends).1
      exact absurd (Except.error.inj (Option.some.inj (returned.symm.trans gives_up))) not_cancelled
  | refused result_eq => exact .inr ⟨rfl, result_eq, rfl⟩
  | interrupted result_eq => exact .inl ⟨rfl, result_eq, rfl⟩
  | stalled =>
      have never := (Behavior.of_stalled ends).1
      rw [gives_up] at never
      contradiction

/-- In a run whose receiver stays, no request was made before a call that says that it was
cancelled.  The run is cancelled if the engine notices a request during the call, which it does
whenever it has a turn behind the request; otherwise it fails, even if a request was made. -/
theorem refusals_of_run {policy : Retry.Policy} {backend : Backend} (script : Script)
    {audience : Audience} (received : audience.room = none) (keeps : backend.KeepsReceiver)
    {front back : List Entry} {session : Nat} {text : String}
    (trace_eq : (run policy backend script audience).trace =
      front ++ .call (.execute session text) :: back)
    (gives_up : (backend.executing (executed front).length).outcome? = some (.error .cancelled)) :
    let outcome := run policy backend script audience
    let behavior := backend.executing (executed front).length
    ¬Requested backend audience front ∧
      ∃ target ∈ script.instances, text = target.batch.text ∧
        (∃ patience, audience.Leaves patience ∧
          (behavior.ending patience = .interrupted ∧ outcome.CancelledIn target ∨
            behavior.ending patience = .returned (.error .cancelled) ∧
              outcome.RefusedIn target)) ∧
        (behavior.ending none = .interrupted → outcome.CancelledIn target) := by
  intro outcome behavior
  have obeys := (sound_of_run policy backend script audience).obeys
  have stream : Stream policy backend script outcome.result outcome.events :=
    stream_of_run policy script received keeps
  obtain ⟨target, known, -, text_eq, patience, rest, leaves, back_eq, sequel⟩ :=
    heard_of_run script received keeps trace_eq
  have ends {event : Event} (ended : outcome.Ended)
      (rest_eq : rest.filterMap Entry.event? = [event]) : outcome.EndsWith event := by
    rw [back_eq, List.append_cons, ← List.append_assoc] at trace_eq
    exact stream.endsWith ended trace_eq rest_eq
  have ends_so : behavior.ending patience = .interrupted ∧ outcome.CancelledIn target ∨
      behavior.ending patience = .returned (.error .cancelled) ∧ outcome.RefusedIn target := by
    refine (sequel.of_gives_up gives_up).imp ?_ ?_
    · rintro ⟨interrupted, phase_eq, rest_eq⟩
      refine ⟨interrupted, phase_eq, ends (fun stop result_eq => ?_) rest_eq⟩
      rw [show (run policy backend script audience).result = _ from result_eq] at phase_eq
      contradiction
    · rintro ⟨returned, failed, rest_eq⟩
      have result_eq : outcome.result = .error (.failed target.refusalError) :=
        eq_error_of_map_eq failed
      refine ⟨returned, result_eq, ends (fun stop stop_eq => ⟨target.refusalError, ?_⟩) rest_eq⟩
      exact Except.error.inj (stop_eq.symm.trans result_eq)
  refine ⟨obeys.begins _ _ _ trace_eq rfl, target, known, text_eq, ⟨patience, leaves, ends_so⟩, ?_⟩
  intro interrupted
  rcases ends_so with ⟨-, cancelled⟩ | ⟨returned, -⟩
  · exact cancelled
  · rw [Behavior.ending_of_interrupted interrupted] at returned
    contradiction

/-- A call that gives the engine a turn between its request and its end. -/
theorem cancelled_at_last_turn :
    let backend :=
      Backend.ofLists [] [.cancel (.yield (.finish (.error .cancelled)))] []
    let script : Script :=
      { batches := #[{ (default : Batch) with text := "a", repeatCount := 1 }]
        trailingMessages := []
        outputTargets := {} }
    let outcome := run .usual backend script {}
    (({} : Audience).room = none ∧ backend.KeepsReceiver) ∧
      ∃ front back, outcome.trace = front ++ .call (.execute 1 "a") :: back ∧
        (backend.executing (executed front).length).outcome? = some (.error .cancelled) ∧
          ∃ target ∈ script.instances, outcome.CancelledIn target := by
  intro backend script outcome
  have received : ({} : Audience).room = none := rfl
  have keeps : backend.KeepsReceiver := by
    refine ⟨fun _ => trivial, fun call => ?_, fun _ => trivial⟩
    cases call <;> exact trivial
  have trace_eq : outcome.trace =
      [.event (.batchStarted 0 1 1 (default : Batch).span), .call (.openSession none)] ++
        .call (.execute 1 "a") :: [.call (.discard 1), .event (.scriptCancelled 0)] := by
    decide +kernel
  obtain ⟨-, target, known, -, -, cancelled⟩ :=
    refusals_of_run script received keeps trace_eq rfl
  exact ⟨⟨received, keeps⟩, _, _, trace_eq, rfl, target, known, cancelled rfl⟩

/-- A call that asks for the run to be cancelled and then gives up, without a turn of the engine in
between, makes the run fail. -/
theorem refused_on_request :
    let backend := Backend.ofLists [] [.cancel (.finish (.error .cancelled))] []
    let batch : Batch := { (default : Batch) with text := "a", repeatCount := 1 }
    let script : Script := { batches := #[batch], trailingMessages := [], outputTargets := {} }
    let target : Instance := { batch, repetition := 1 }
    let outcome := run .usual backend script {}
    outcome.trace =
        [.event target.started, .call (.openSession none), .call (.execute 1 "a"),
          .call (.discard 1), .event (.scriptHalted batch.index target.refusal)] ∧
      (backend.executing 0).asks = true ∧
      (backend.executing 0).outcome? = some (.error .cancelled) ∧
      outcome.result = .error (.failed target.refusalError) := by
  intro backend batch script target outcome
  have stopped : (match outcome.result with
      | .error stop => some stop
      | .ok _ => none) = some (.failed target.refusalError) := by
    decide +kernel
  refine ⟨by decide +kernel, rfl, rfl, ?_⟩
  split at stopped
  · rename_i result_eq
    rw [result_eq, Option.some.inj stopped]
  · contradiction

end Engine
end SqlScript
