import SqlScript.Proofs.Engine.Cancellation
import SqlScript.Proofs.Engine.Notices
import SqlScript.Proofs.Engine.Retries

/-!
# Verdicts on instances

An instance fails if the server raised an error of severity eleven or above in it or if its last
call failed below the level of the server; what its earlier calls returned does not count.  A failed
instance ends its script if its batch says so.  Behind every other instance that is reported the
script goes on with the next one.
-/

namespace SqlScript
namespace BatchResult

/-- The error below the level of the server with which a call ended. -/
def breakdown? : Except SessionError (Option Nat) → Option SessionError
  | .ok _ | .error (.server _) => none
  | .error failure => some failure

/-- The result judges a batch in which the server raised these errors, and whose last call ended
with `final`. -/
structure Judges (raised : List ServerError) (final : Except SessionError (Option Nat))
    (result : BatchResult) : Prop where
  success_iff : result.success = true ↔
    (∀ failure ∈ raised, failure.severity < 11) ∧ breakdown? final = none
  broken_iff : result.connectionBroken = true ↔
    ∃ failure, breakdown? final = some failure ∧ failure.breaksConnection = true
  /-- A failed batch names its first fatal error, or else what the last call returned. -/
  reason : result.success = false →
    (∃ failure, raised.find? (fun failure => 11 ≤ failure.severity) = some failure ∧
      result.failureReason = "Msg " ++ toString failure.number ++ ", Level " ++
        toString failure.severity ++ ": " ++ failure.description) ∨
    (∀ failure ∈ raised, failure.severity < 11) ∧
      ∃ failure, breakdown? final = some failure ∧ result.failureReason = failure.message

variable {notices : List Notice} {final : Except SessionError (Option Nat)}

/-- Of a call that failed below the level of the server, the result keeps how. -/
theorem breakdown_ofCall (notices : List Notice) (final : Except SessionError (Option Nat)) :
    (ofCall notices final).sessionFailure = (breakdown? final).map SessionError.message ∧
      (ofCall notices final).connectionBroken =
        (breakdown? final).any SessionError.breaksConnection := by
  cases final with
  | ok rows =>
      rw [ofCall, foldl_record]
      exact ⟨rfl, rfl⟩
  | error failure =>
      rw [ofCall, foldl_record]
      cases failure <;> exact ⟨rfl, rfl⟩

theorem Keeps.fatalError?_eq {result : BatchResult} (keeps : result.Keeps notices final) :
    result.fatalError? =
      (notices.filterMap Notice.error? ++ returned final).find?
        fun failure => 11 ≤ failure.severity := by
  rw [fatalError?, keeps.errors_eq]
  rfl

/-- The result of a call judges all that the server raised in it. -/
theorem judges_ofCall (notices : List Notice) (final : Except SessionError (Option Nat)) :
    (ofCall notices final).classify.Judges
      (notices.filterMap Notice.error? ++ returned final) final := by
  have fatal_eq := (keeps_ofCall notices final).fatalError?_eq
  obtain ⟨session_eq, broken_eq⟩ := breakdown_ofCall notices final
  generalize notices.filterMap Notice.error? ++ returned final = raised at fatal_eq ⊢
  have none_fatal : (ofCall notices final).fatalError? = none ↔
      ∀ failure ∈ raised, failure.severity < 11 := by
    simp [fatal_eq]
  have success_iff : (ofCall notices final).classify.success = true ↔
      (∀ failure ∈ raised, failure.severity < 11) ∧ breakdown? final = none := by
    rw [← none_fatal]
    cases sunk : breakdown? final <;> simp [classify, session_eq, broken_eq, sunk]
  refine ⟨success_iff, ?_, fun failed => ?_⟩
  · change (ofCall notices final).connectionBroken = true ↔ _
    rw [broken_eq, Option.any_eq_true]
  · have reason_eq : (ofCall notices final).classify.failureReason =
        (ofCall notices final).failureReason := rfl
    rw [reason_eq, failureReason]
    cases fatal : (ofCall notices final).fatalError? with
    | some failure => exact .inl ⟨failure, fatal_eq.symm.trans fatal, rfl⟩
    | none =>
        have mild := none_fatal.mp fatal
        cases sunk : breakdown? final with
        | none => simp [success_iff.mpr ⟨mild, sunk⟩] at failed
        | some failure => exact .inr ⟨mild, failure, rfl, by simp [session_eq, sunk]⟩

end BatchResult

namespace ErrorAction

theorem halts_eq_true_iff {action : ErrorAction} : action.halts = true ↔ action = .exit := by
  cases action <;> simp [halts]

theorem halts_eq_false_iff {action : ErrorAction} : action.halts = false ↔ action = .ignore := by
  cases action <;> simp [halts]

end ErrorAction

theorem Batch.getElem?_instances (batch : Batch) (place : Nat) :
    batch.instances[place]? =
      if place < batch.repeatCount then some { batch, repetition := place + 1 } else none := by
  rw [instances, List.getElem?_map]
  split
  · rename_i within
    simp [within, Nat.add_comm]
  · rename_i behind
    rw [List.getElem?_eq_none (by simpa using behind)]
    rfl

/-- The next time that a batch is run comes right behind the time before. -/
theorem Script.next_repeat {script : Script} {place : Nat} {target : Engine.Instance}
    (at_place : script.instances[place]? = some target)
    (again : target.repetition < target.batch.repeatCount) :
    script.instances[place + 1]? = some { target with repetition := target.repetition + 1 } := by
  unfold instances at at_place ⊢
  generalize script.runnable = batches at at_place ⊢
  induction batches generalizing place with
  | nil => simp at at_place
  | cons batch batches induction =>
      rw [List.flatMap_cons] at at_place ⊢
      rcases Nat.lt_or_ge place batch.instances.length with inside | behind
      · rw [List.getElem?_append_left inside, batch.getElem?_instances] at at_place
        split at at_place
        · obtain rfl := Option.some.inj at_place
          have next := batch.getElem?_instances (place + 1)
          rw [if_pos again] at next
          rw [List.getElem?_append_left (List.getElem?_eq_some_iff.mp next).1, next]
        · contradiction
      · rw [List.getElem?_append_right behind] at at_place
        rw [List.getElem?_append_right (Nat.le_succ_of_le behind), Nat.succ_sub behind]
        exact induction at_place

namespace Engine

open Trace

/-- The errors that the server raised during `calls` calls from number `base` on, with the one that
the last of them returned. -/
def Backend.raised (backend : Backend) (base calls : Nat)
    (final : Except SessionError (Option Nat)) : List ServerError :=
  (List.range' base calls).flatMap
    (fun call => (backend.executing call).notices.filterMap Notice.error?) ++
      BatchResult.returned final

variable {scenario : Scenario}

/-- What was forgiven raised no errors. -/
theorem Scenario.Forgives.raised_eq {base : Nat} {setbacks : List Setback}
    (forgives : scenario.Forgives base setbacks) (final : Except SessionError (Option Nat)) :
    scenario.backend.raised base (setbacks.length + 1) final =
      (scenario.backend.executing (base + setbacks.length)).notices.filterMap Notice.error? ++
        BatchResult.returned final := by
  have silent : (List.range' base setbacks.length).flatMap (fun call =>
      (scenario.backend.executing call).notices.filterMap Notice.error?) = [] := by
    refine List.flatMap_eq_nil_iff.mpr fun call member => ?_
    obtain ⟨number, within, rfl⟩ := List.mem_range'.mp member
    obtain ⟨quiet, -⟩ := forgives number _ (List.getElem?_eq_getElem within)
    rw [Nat.one_mul, quiet]
    rfl
  rw [Backend.raised, List.range'_concat, List.flatMap_append, silent]
  simp

/-- The run does not end because a session is not closed. -/
def Lingers (backend : Backend) (ends : Except Stop Summary) : Prop :=
  ends = .error .stalled ∧ ∃ call, (backend.closing call).outcome? = none

/-- Behind an instance that was completed with the last entry of `past`, the run goes on with the
next one, unless it was asked to be cancelled and is before that begins.  Where there is no next one
it is completed. -/
def GoesOn (backend : Backend) (audience : Audience) (past : List Entry)
    (ends : Except Stop Summary) (rest : List Entry) : (next : Option Instance) → Prop
  | some next =>
      (∃ more, rest = .event next.started :: more) ∨
        (∃ more, rest = .event (.scriptCancelled next.batch.index) :: more) ∧
            Petitioned backend audience past ∨
          (rest = [] ∨ ∃ session, rest = [.call (.discard session)]) ∧
            ends = .error (.failed .receiverGone)
  | none =>
      (∀ entry ∈ rest, entry.isFree = true) ∧
        (ends.map Summary.phase = .ok .completed ∨ Lingers backend ends ∨
          ends = .error (.failed .receiverGone))

/-- What becomes of the script behind an instance with this result, which is told behind `past`. -/
inductive Instance.Ruled (backend : Backend) (audience : Audience) (past : List Entry)
    (ends : Except Stop Summary) (target : Instance) (next : Option Instance)
    (result : BatchResult) : List Entry → Prop
  | completed {rest : List Entry} :
      result.success = true ∨ target.batch.errorAction = .ignore →
        GoesOn backend audience
          (past ++ [.event (.batchCompleted target.batch.index target.repetition result)]) ends
          rest next →
          Ruled backend audience past ends target next result
            (.event (.batchCompleted target.batch.index target.repetition result) :: rest)
  /-- Nothing but the session is let go. -/
  | halted {rest : List Entry} :
      result.success = false → target.batch.errorAction = .exit →
        (∀ entry ∈ rest, ∃ session, entry = .call (backend.release session)) →
          ends.map Summary.phase = .ok .halted ∨ Lingers backend ends →
            Ruled backend audience past ends target next result
              (.event (.scriptHalted target.batch.index result.failureReason) :: rest)

/-- The instance that began after `front` was reported with this result after `since`. -/
def Reported (scenario : Scenario) (front since : List Entry) (result : BatchResult) : Prop :=
  (∀ entry ∈ since, entry.borders = false) ∧
    ∃ attempt final, (executed since).length = attempt + 1 ∧
      let call := (executed front).length + attempt
      (scenario.backend.executing call).outcome? = some final ∧
        result =
          (BatchResult.ofCall (scenario.backend.executing call).notices final).classify ∧
        result.Judges (scenario.backend.raised (executed front).length (attempt + 1) final) final

/-- The instance that began after `front` has had no call whose end is to be reported. -/
def Unsettled (scenario : Scenario) (front back : List Entry) : Prop :=
  ∀ attempt final, (executed back).length = attempt + 1 →
    ¬scenario.Settles (attempt + 1) ((executed front).length + attempt) final

/-- The instance that began after `front` was not reported: the run was asked to be cancelled and
was in the instance, or its events were not received, or none of its calls was to be reported. -/
structure Unreported (scenario : Scenario) (audience : Audience) (ends : Except Stop Summary)
    (front : List Entry) (target : Instance) (back : List Entry) : Prop where
  inside : ∀ entry ∈ back, entry.borders = false
  reason :
    (∃ inner more, back = inner ++ .event (.scriptCancelled target.batch.index) :: more ∧
      Petitioned scenario.backend audience (front ++ .event target.started :: inner)) ∨
    (ends = .error (.failed .receiverGone) ∧
      ∀ event, .event event ∈ back → event.isTerminal = false) ∨
    (∃ stop, ends = .error stop) ∧ Unsettled scenario front back

variable {machine machine' : Machine} {label : Option Entry} {trace : List Entry}
  {target next : Instance} {audience : Audience} {ends : Except Stop Summary}

/-- The engine does not look for requests at the stage. -/
def Stage.Unwatched : Stage → Prop
  | acquiring .. | opening .. | holding .. | awaiting .. | pausing .. => False
  | _ => True

theorem Stage.not_unwatched {backend : Backend} {stage : Stage} {here : Instance}
    (interrupted : stage.Idles backend here ∨ stage.Waits backend here) : ¬stage.Unwatched := by
  rcases interrupted with idles | waits
  · cases idles <;> exact id
  · cases waits <;> exact id

/-- The next instance has not begun. -/
def Machine.Awaits (next : Instance) (machine : Machine) : Prop :=
  machine.todo.head? = some next ∧ (machine.stage = .between ∨ machine.stage = .leaving next)

theorem Machine.Awaits.unwatched (awaits : machine.Awaits next) : machine.stage.Unwatched := by
  rcases awaits.2 with stage_eq | stage_eq <;> rw [stage_eq] <;> trivial

theorem Move.awaits (move : Move scenario machine label machine') (awaits : machine.Awaits next) :
    label = none ∧ machine'.Awaits next ∨
      label = some (.event next.started) ∨
      label = some (.event (.scriptCancelled next.batch.index)) ∨
      (∃ session, label = some (.call (.discard session))) ∧
        machine'.stage = .lost ∧ machine'.held = none := by
  have unwatched := awaits.unwatched
  obtain ⟨todo_eq, stage_eq⟩ := awaits
  cases move with
  | start between todo_eq' =>
      obtain rfl : _ = next := by simpa [todo_eq'] using todo_eq
      exact .inr (.inl rfl)
  | skip between todo_eq' =>
      obtain rfl : _ = next := by simpa [todo_eq'] using todo_eq
      exact .inl ⟨rfl, todo_eq, .inr rfl⟩
  | cancel leaving =>
      obtain rfl : _ = next := by simpa [leaving] using stage_eq
      exact .inr (.inr (.inl rfl))
  | lose => exact .inr (.inr (.inr ⟨⟨_, rfl⟩, rfl, rfl⟩))
  | trail between none_left => simp [none_left] at todo_eq
  | leave interrupted =>
      exact (Stage.not_unwatched (interrupted.imp_right And.left) unwatched).elim
  | letGo waits => exact (Stage.not_unwatched (.inr waits) unwatched).elim
  | _ =>
      rw [‹machine.stage = _›] at stage_eq
      rcases stage_eq with absurd | absurd <;> cases absurd

/-- A run that lost its receiver does nothing more. -/
theorem Move.not_lost (move : Move scenario machine label machine')
    (stage_eq : machine.stage = .lost) (held_eq : machine.held = none) : False := by
  have unwatched : machine.stage.Unwatched := by
    rw [stage_eq]
    trivial
  cases move with
  | leave interrupted => exact Stage.not_unwatched (interrupted.imp_right And.left) unwatched
  | letGo waits => exact Stage.not_unwatched (.inr waits) unwatched
  | lose held => cases held.symm.trans held_eq
  | _ => cases ‹machine.stage = _›.symm.trans stage_eq

/-- Where the next instance has not begun, it begins before anything else happens, unless the run is
cancelled or its events are not received. -/
theorem Path.goes_on {initial : Machine} (path : Path scenario initial trace machine)
    (awaits : initial.Awaits next) :
    trace = [] ∧ machine.Awaits next ∨
      (∃ more, trace = .event next.started :: more) ∨
      (∃ more, trace = .event (.scriptCancelled next.batch.index) :: more) ∨
      (∃ session, trace = [.call (.discard session)]) ∧
        machine.stage = .lost ∧ machine.held = none := by
  induction path with
  | nil => exact .inl ⟨rfl, awaits⟩
  | snoc _ move induction =>
      rcases induction with ⟨rfl, awaits⟩ | ⟨more, rfl⟩ | ⟨more, rfl⟩ | ⟨-, lost, held_eq⟩
      · rcases move.awaits awaits with ⟨rfl, awaits⟩ | rfl | rfl | ⟨⟨session, rfl⟩, lost⟩
        · exact .inl ⟨rfl, awaits⟩
        · exact .inr (.inl ⟨[], rfl⟩)
        · exact .inr (.inr (.inl ⟨[], rfl⟩))
        · exact .inr (.inr (.inr ⟨⟨session, rfl⟩, lost⟩))
      · exact .inr (.inl ⟨_, rfl⟩)
      · exact .inr (.inr (.inl ⟨_, rfl⟩))
      · exact (move.not_lost lost held_eq).elim

/-- At these stages all instances have been run. -/
def Stage.IsLate : Stage → Prop
  | between | trailing _ | ending .completed | finished | lost => True
  | _ => False

/-- All instances have been run. -/
def Machine.Through (machine : Machine) : Prop :=
  machine.todo = [] ∧ machine.stage.IsLate

theorem Stage.IsLate.unwatched {stage : Stage} (late : stage.IsLate) : stage.Unwatched := by
  cases stage <;> trivial

theorem Move.through (move : Move scenario machine label machine') (through : machine.Through) :
    (∀ entry ∈ label.toList, entry.isFree = true) ∧ machine'.Through := by
  obtain ⟨todo_eq, late⟩ := through
  cases move with
  | start between todo_eq' | skip between todo_eq' => simp [todo_eq'] at todo_eq
  | trail | remark | wind | conclude | lose => exact ⟨by simp [Entry.isFree], todo_eq, trivial⟩
  | release => exact ⟨by simp [Backend.isFree_release], todo_eq, late⟩
  | leave interrupted =>
      exact (Stage.not_unwatched (interrupted.imp_right And.left) late.unwatched).elim
  | letGo waits => exact (Stage.not_unwatched (.inr waits) late.unwatched).elim
  | _ =>
      rw [‹machine.stage = _›] at late
      exact late.elim

theorem Path.through {initial : Machine} (path : Path scenario initial trace machine)
    (through : initial.Through) : (∀ entry ∈ trace, entry.isFree = true) ∧ machine.Through := by
  induction path with
  | nil => exact ⟨by simp, through⟩
  | snoc _ move induction =>
      obtain ⟨all_free, through⟩ := induction
      obtain ⟨label_free, through⟩ := move.through through
      exact ⟨List.forall_mem_append.mpr ⟨all_free, label_free⟩, through⟩

/-- Where a run has not failed and no session is sought, it stops because a call does not return or
its events are not received. -/
theorem Machine.Halts.stalls_or_unended {stop : Stop} (halts : machine.Halts scenario stop)
    (unwatched : machine.stage.Unwatched)
    (unfailed : machine.stage ≠ .aborted ∧ ∀ failure, machine.stage ≠ .barred failure) :
    stop = .stalled ∧ machine.stage.Stalls scenario.backend ∨
      stop = .failed .receiverGone ∧ machine.stage.Unended := by
  cases stop with
  | stalled => exact .inl ⟨rfl, halts⟩
  | uncounted =>
      obtain ⟨-, _, _, _, stage_eq, -⟩ := halts
      rw [stage_eq] at unwatched
      exact unwatched.elim
  | failed failure =>
      cases failure with
      | receiverGone => exact .inr ⟨rfl, halts⟩
      | connection failure => exact absurd halts.1 (unfailed.2 failure)
      | internal => exact absurd halts.1 unfailed.1

namespace Machine.Ends

/-- A run that has only its session to release ends in the phase that it has reached, unless the
session is not closed; the end of a completed script may not be received. -/
theorem of_ending {phase : Phase} (ends_so : machine.Ends scenario ends)
    (stage_eq : machine.stage = .ending phase) :
    ends.map Summary.phase = .ok phase ∨ Lingers scenario.backend ends ∨
      phase = .completed ∧ ends = .error (.failed .receiverGone) := by
  cases ends with
  | ok summary =>
      rcases ends_so.2 with ⟨finished, -⟩ | ⟨ending, -⟩
      · simp [stage_eq] at finished
      · obtain rfl : phase = summary.phase := by simpa [stage_eq] using ending
        exact .inl rfl
  | error stop =>
      have halts : machine.Halts scenario stop := ends_so
      rcases halts.stalls_or_unended (by simp [stage_eq, Stage.Unwatched]) (by simp [stage_eq])
        with ⟨rfl, stalls⟩ | ⟨rfl, unended⟩
      · rw [stage_eq] at stalls
        exact .inr (.inl ⟨rfl, stalls⟩)
      · rw [stage_eq] at unended
        exact .inr (.inr ⟨unended, rfl⟩)

theorem of_finished (ends_so : machine.Ends scenario ends) (stage_eq : machine.stage = .finished) :
    ends.map Summary.phase = .ok .completed := by
  cases ends with
  | ok summary =>
      rcases ends_so.2 with ⟨-, phase_eq⟩ | ⟨ending, -⟩
      · exact congrArg Except.ok phase_eq
      · simp [stage_eq] at ending
  | error stop =>
      have halts : machine.Halts scenario stop := ends_so
      rcases halts.stalls_or_unended (by simp [stage_eq, Stage.Unwatched]) (by simp [stage_eq])
        with ⟨rfl, stalls⟩ | ⟨rfl, unended⟩
      · rw [stage_eq] at stalls
        exact stalls.elim
      · rw [stage_eq] at unended
        exact unended.elim

/-- Where no call is waited for and no session is sought, a run ends for want of a receiver. -/
theorem of_quiet (ends_so : machine.Ends scenario ends) (unended : machine.stage.Unended)
    (quiet : ¬machine.stage.Stalls scenario.backend)
    (elsewhere : ∀ target attempt tries, machine.stage ≠ .acquiring target attempt tries) :
    ends = .error (.failed .receiverGone) := by
  refine ends_so.receiverGone unended ?_ ?_
  · rintro rfl
    exact quiet ends_so
  · rintro rfl
    obtain ⟨-, target, attempt, tries, stage_eq, -⟩ := ends_so
    exact elsewhere target attempt tries stage_eq

theorem of_awaits (ends_so : machine.Ends scenario ends) (awaits : machine.Awaits next) :
    ends = .error (.failed .receiverGone) := by
  have stage_eq := awaits.2
  refine ends_so.of_quiet ?_ ?_ ?_ <;> rcases stage_eq with stage_eq | stage_eq
  all_goals simp [stage_eq, Stage.Unended, Stage.Stalls]

theorem of_lost (ends_so : machine.Ends scenario ends) (stage_eq : machine.stage = .lost) :
    ends = .error (.failed .receiverGone) := by
  refine ends_so.of_quiet ?_ ?_ ?_
  all_goals simp [stage_eq, Stage.Unended, Stage.Stalls]

theorem of_through (ends_so : machine.Ends scenario ends) (through : machine.Through) :
    ends.map Summary.phase = .ok .completed ∨ Lingers scenario.backend ends ∨
      ends = .error (.failed .receiverGone) := by
  have late := through.2
  cases stage_eq : machine.stage with
  | finished => exact .inl (ends_so.of_finished stage_eq)
  | ending phase =>
      rw [stage_eq] at late
      cases phase with
      | completed => exact (ends_so.of_ending stage_eq).imp_right (Or.imp_right And.right)
      | _ => exact late.elim
  | between | trailing | lost =>
      refine .inr (.inr (ends_so.of_quiet ?_ ?_ ?_))
      all_goals simp [stage_eq, Stage.Unended, Stage.Stalls]
  | _ =>
      rw [stage_eq] at late
      exact late.elim

end Machine.Ends

/-- Where a script was halted, and what has happened since. -/
theorem Path.halted (path : Path scenario (.start scenario.script) trace machine)
    (stage_eq : machine.stage = .ending .halted) :
    ∃ front rest before target result, Path scenario (.start scenario.script) front before ∧
      before.stage = .reporting target result ∧ result.success = false ∧
        target.batch.errorAction.halts = true ∧
          trace = front ++ .event (.scriptHalted target.batch.index result.failureReason) :: rest ∧
            ∀ entry ∈ rest, ∃ session, entry = .call (scenario.backend.release session) := by
  induction path with
  | nil => cases stage_eq
  | @snoc entries last label final path move induction =>
      cases move with
      | @halt target result reporting failed halts =>
          exact ⟨entries, [], last, target, result, path, reporting, failed, halts, rfl, by simp⟩
      | @release phase session ending =>
          obtain ⟨front, rest, before, target, result, to_before, reporting, failed, halts, rfl,
            releases⟩ := induction stage_eq
          refine ⟨front, rest ++ [.call (scenario.backend.release session.number)], before, target,
            result, to_before, reporting, failed, halts, by simp, ?_⟩
          refine List.forall_mem_append.mpr ⟨releases, fun entry member => ⟨session.number, ?_⟩⟩
          exact List.mem_singleton.mp member
      | replace acquiring => cases acquiring.symm.trans stage_eq
      | discard failed => cases failed.symm.trans stage_eq
      | _ => cases stage_eq

/-- Instances are run in the order of the script. -/
theorem Path.place {before since : List Entry}
    (path : Path scenario (.start scenario.script) trace machine)
    (here : machine.stage.target? = some target) (stays : machine.stage ≠ .leaving target)
    (underway : Underway trace before target since) :
    scenario.script.instances[(Trace.begun before).length]? = some target ∧
      scenario.script.instances[(Trace.begun before).length + 1]? = machine.todo.head? := by
  obtain ⟨earlier, instances_eq⟩ := path.knows.place target here stays
  have begun_eq : Trace.begun trace = Trace.begun before ++ [target.started] := by
    rw [underway.trace_eq, begun_append]
    exact congrArg _ (congrArg _ (begun_eq_nil (fun _ _ _ _ => rfl) underway.inside))
  have lengths := congrArg List.length path.begun
  have place_eq : (Trace.begun before).length = earlier.length := by
    rw [begun_eq, ← instances_eq] at lengths
    simp at lengths
    omega
  rw [place_eq, ← instances_eq]
  simp [List.getElem?_append_right, List.head?_eq_getElem?]

/-- The instances that are announced are those of the script, in order. -/
theorem Path.announced {front back : List Entry} {announced : Instance}
    (path : Path scenario (.start scenario.script) (front ++ .event announced.started :: back)
      machine) :
    ∃ target, scenario.script.instances[(Trace.begun front).length]? = some target ∧
      target.started = announced.started := by
  have at_place := congrArg (·[(Trace.begun front).length]?) path.begun
  simp only [begun_append, List.getElem?_map, List.append_assoc] at at_place
  rw [List.getElem?_append_right (Nat.le_refl _), Nat.sub_self] at at_place
  obtain ⟨target, place, started_eq⟩ := Option.map_eq_some_iff.mp at_place.symm
  exact ⟨target, place, started_eq⟩

/-- An instance that is to be reported is judged by all that its calls raised. -/
theorem Path.reported {result : BatchResult}
    (path : Path scenario (.start scenario.script) trace machine)
    (stage_eq : machine.stage = .reporting target result) :
    ∃ before since, Underway trace before target since ∧
      Reported scenario before since result ∧
        scenario.script.instances[(Trace.begun before).length]? = some target ∧
          scenario.script.instances[(Trace.begun before).length + 1]? = machine.todo.head? := by
  have befits := path.befits
  rw [stage_eq] at befits
  obtain ⟨_, before, since, setbacks, submitted, told, story, ⟨⟩⟩ := befits
  rename_i final settles
  have underway := story.toUnderway
  have judges := BatchResult.judges_ofCall (scenario.backend.executing
    ((executed before).length + setbacks.length)).notices final
  rw [← story.forgiven.raised_eq final] at judges
  refine ⟨before, since, underway, ⟨underway.inside, setbacks.length, final, story.calls_eq,
    settles.1, rfl, judges⟩, path.place ?_ ?_ underway⟩
  · rw [stage_eq]
    rfl
  · simp [stage_eq]

/-- A call after which the batch was submitted again is not reported. -/
theorem Scenario.Forgives.not_settles {base attempt : Nat} {setbacks : List Setback}
    (forgives : scenario.Forgives base setbacks) (earlier : attempt < setbacks.length)
    (final : Except SessionError (Option Nat)) :
    ¬scenario.Settles (attempt + 1) (base + attempt) final := by
  obtain ⟨quiet, outcome_eq, delay_eq⟩ := forgives attempt _ (List.getElem?_eq_getElem earlier)
  rintro ⟨returned, reported⟩
  obtain rfl := Option.some.inj (outcome_eq.symm.trans returned)
  rcases (reported _ rfl).2 with noisy | given_up
  · exact noisy quiet
  · simp [given_up] at delay_eq

/-- No call of an instance is to be reported if the one that was not forgiven, if there is one, is
not. -/
theorem Stage.Follows.unsettled {stage : Stage} {front back : List Entry}
    (follows : stage.Follows scenario trace) (underway : Underway trace front target back)
    (last : ∀ teller attempt call submitted told,
      stage.Tells scenario teller attempt call submitted told →
        submitted = 0 ∨ submitted = 1 ∧ ∀ final, ¬scenario.Settles attempt call final) :
    Unsettled scenario front back := by
  obtain ⟨teller, before, since, setbacks, submitted, told, story, tells⟩ := follows
  obtain ⟨rfl, -, rfl⟩ := story.toUnderway.unique underway
  intro attempt final calls_eq settles
  rw [story.calls_eq] at calls_eq
  rcases last _ _ _ _ _ tells with rfl | ⟨rfl, not_settles⟩
  · exact story.forgiven.not_settles (by omega) final settles
  · obtain rfl : setbacks.length = attempt := by omega
    exact not_settles final settles

/-- A run that stops in an instance while events are received does so because no call of it is to be
reported. -/
theorem Machine.Halts.unsettled {stop : Stop} {front back : List Entry}
    (halts : machine.Halts scenario stop) (received : stop ≠ .failed .receiverGone)
    (elsewhere : ∀ phase, machine.stage ≠ .ending phase)
    (befits : machine.stage.Befits scenario trace)
    (underway : Underway trace front target back) : Unsettled scenario front back := by
  cases stop with
  | stalled =>
      have stalls : machine.stage.Stalls scenario.backend := halts
      generalize machine.stage = stage at befits stalls elsewhere
      cases stage with
      | acquiring | opening =>
          refine Stage.Follows.unsettled befits underway ?_
          rintro _ _ _ _ _ ⟨⟩
          exact .inl rfl
      | awaiting =>
          refine Stage.Follows.unsettled befits underway ?_
          rintro _ _ _ _ _ ⟨⟩
          have endless : Behavior.outcome? _ = none := stalls
          exact .inr ⟨rfl, fun final settles => nomatch endless.symm.trans settles.1⟩
      | ending phase => exact absurd rfl (elsewhere phase)
      | _ => exact stalls.elim
  | uncounted =>
      obtain ⟨-, _, _, _, stage_eq, -⟩ := halts
      rw [stage_eq] at befits
      refine Stage.Follows.unsettled befits underway ?_
      rintro _ _ _ _ _ ⟨⟩
      exact .inl rfl
  | failed failure =>
      cases failure with
      | receiverGone => contradiction
      | connection failure =>
          rw [halts.1] at befits
          refine Stage.Follows.unsettled befits underway ?_
          rintro _ _ _ _ _ ⟨⟩
          exact .inl rfl
      | internal =>
          rw [halts.1] at befits
          refine Stage.Follows.unsettled befits underway ?_
          rintro _ _ _ _ _ ⟨⟩
          rename_i outcome_eq
          refine .inr ⟨rfl, fun final ⟨returned, reported⟩ => ?_⟩
          obtain rfl := Option.some.inj (outcome_eq.symm.trans returned)
          exact (reported _ rfl).1 rfl

theorem Stage.unended_of_interrupted {backend : Backend} {stage : Stage} {here : Instance}
    (interrupted : stage.Idles backend here ∨ stage.Waits backend here) : stage.Unended := by
  rcases interrupted with idles | waits
  · cases idles <;> trivial
  · cases waits <;> trivial

/-- Events that end a run lead to stages where one has ended it. -/
theorem Move.unended_before (move : Move scenario machine label machine')
    (unended : machine'.stage.Unended) :
    machine.stage.Unended ∧ ∀ event, label = some (.event event) → event.isTerminal = false := by
  cases move with
  | release => exact ⟨unended, by simp⟩
  | lose _ unended_here => exact ⟨unended_here, by simp⟩
  | leave interrupted =>
      exact ⟨Stage.unended_of_interrupted (interrupted.imp_right And.left), by simp⟩
  | letGo waits => exact ⟨Stage.unended_of_interrupted (.inr waits), by simp⟩
  | @forward target attempt call sent notice stage_eq =>
      refine ⟨by rw [stage_eq]; trivial, ?_⟩
      rintro _ ⟨⟩
      cases notice <;> rfl
  | @report target attempt call failure stage_eq =>
      refine ⟨by rw [stage_eq]; trivial, ?_⟩
      rintro _ ⟨⟩
      cases failure <;> rfl
  | giveUp | refuse | conclude => exact unended.elim
  | halt | cancel => cases unended
  | start | greet | retry | complete | remark =>
      refine ⟨by rw [‹machine.stage = _›]; trivial, ?_⟩
      rintro _ ⟨⟩
      rfl
  | _ => exact ⟨by rw [‹machine.stage = _›]; trivial, by simp⟩

theorem Path.unended (path : Path scenario (.start scenario.script) trace machine)
    (unended : machine.stage.Unended) :
    ∀ event, .event event ∈ trace → event.isTerminal = false := by
  induction path with
  | nil => simp
  | snoc _ move induction =>
      obtain ⟨unended_before, label_open⟩ := move.unended_before unended
      intro event member
      rcases List.mem_append.mp member with in_front | in_label
      · exact induction unended_before event in_front
      · exact label_open event (Option.mem_toList.mp in_label)

/-- Behind an instance that is completed the run goes on. -/
theorem Path.goesOn {initial : Machine} {past : List Entry}
    (path : Path scenario initial trace machine) (ends_so : machine.Ends scenario ends)
    (between : initial.stage = .between)
    (obeys : Obeys scenario.backend audience (past ++ trace)) :
    GoesOn scenario.backend audience past ends trace initial.todo.head? := by
  cases next_eq : initial.todo.head? with
  | none =>
      have none_left := List.head?_eq_none_iff.mp next_eq
      obtain ⟨all_free, through⟩ := path.through ⟨none_left, by rw [between]; trivial⟩
      exact ⟨all_free, ends_so.of_through through⟩
  | some next =>
      rcases path.goes_on ⟨next_eq, .inl between⟩ with
        ⟨rfl, awaits⟩ | begins | ⟨more, rfl⟩ | ⟨lets_go, lost, -⟩
      · exact .inr (.inr ⟨.inl rfl, ends_so.of_awaits awaits⟩)
      · exact .inl begins
      · exact .inr (.inl ⟨⟨more, rfl⟩, obeys.cancels past _ more rfl rfl⟩)
      · exact .inr (.inr ⟨.inr lets_go, ends_so.of_lost lost⟩)

/-- The instance that began after `front` was reported, and its result decided what became of the
script. -/
def Decided (scenario : Scenario) (audience : Audience) (ends : Except Stop Summary)
    (front : List Entry) (target : Instance) (back : List Entry) : Prop :=
  ∃ since rest result, back = since ++ rest ∧ Reported scenario front since result ∧
    target.Ruled scenario.backend audience (front ++ .event target.started :: since) ends
      scenario.script.instances[(begun front).length + 1]? result rest

section Verdicts

variable {front back since rest : List Entry} {before after : Machine} {border : Entry}

/-- An instance that is followed by another border was reported. -/
theorem Path.decided_of_border
    (path : Path scenario (.start scenario.script) (front ++ .event target.started :: since) before)
    (move : Move scenario before (some border) after) (onward : Path scenario after rest machine)
    (ends_so : machine.Ends scenario ends) (inside : ∀ entry ∈ since, entry.borders = false)
    (borders : border.borders = true)
    (obeys : Obeys scenario.backend audience
      (front ++ .event target.started :: since ++ border :: rest)) :
    ∃ teller, scenario.script.instances[(Trace.begun front).length]? = some teller ∧
      teller.started = target.started ∧
        Decided scenario audience ends front teller (since ++ border :: rest) := by
  have underway : Underway (front ++ .event target.started :: since) front target since :=
    ⟨rfl, inside⟩
  rcases move.border_origin borders with
    between | ⟨teller, result, stage_eq, rfl, mild, between, todo_eq⟩
  · have befits := path.befits
    rw [between] at befits
    exact absurd underway (befits front target since)
  · obtain ⟨_, _, underway', reported, place, next⟩ := path.reported stage_eq
    obtain ⟨rfl, started_eq, rfl⟩ := underway'.unique underway
    rw [List.append_cons, Instance.verdict, if_pos mild] at obeys
    have goes_on := onward.goesOn ends_so between obeys
    rw [todo_eq, ← next] at goes_on
    refine ⟨teller, place, started_eq, _, _, result, rfl, reported, ?_⟩
    rw [Instance.verdict, if_pos mild, started_eq]
    exact .completed (mild.imp_right ErrorAction.halts_eq_false_iff.mp) goes_on

/-- An instance that halted its script was reported. -/
theorem Path.decided_of_halted (path : Path scenario (.start scenario.script) trace machine)
    (ends_so : machine.Ends scenario ends) (underway : Underway trace front target back)
    (stage_eq : machine.stage = .ending .halted) :
    ∃ teller, scenario.script.instances[(Trace.begun front).length]? = some teller ∧
      teller.started = target.started ∧ Decided scenario audience ends front teller back := by
  obtain ⟨_, rest, _, teller, result, to_before, reporting, failed, halts, rfl, releases⟩ :=
    path.halted stage_eq
  obtain ⟨_, since, underway', reported, place, -⟩ := to_before.reported reporting
  have inside : ∀ entry ∈ .event (.scriptHalted teller.batch.index result.failureReason) :: rest,
      entry.borders = false := by
    refine List.forall_mem_cons.mpr ⟨rfl, fun entry member => ?_⟩
    obtain ⟨session, rfl⟩ := releases entry member
    rfl
  obtain ⟨rfl, started_eq, rfl⟩ := (underway'.append inside).unique underway
  have ended := (ends_so.of_ending stage_eq).imp_right (Or.resolve_right · (by simp))
  exact ⟨teller, place, started_eq, since, _, result, rfl, reported,
    .halted failed (ErrorAction.halts_eq_true_iff.mp halts) releases ended⟩

theorem Stage.Befits.phase_of_ending {phase : Phase}
    (befits : (Stage.ending phase).Befits scenario trace)
    (underway : Underway trace front target back) : phase = .halted ∨ phase = .cancelled := by
  cases phase with
  | completed => exact absurd underway (befits front target back)
  | halted => exact .inl rfl
  | cancelled => exact .inr rfl
  | _ => obtain ⟨_, _, _, _, _, _, _, ⟨⟩⟩ := befits

/-- A run that is cancelled in an instance says so. -/
theorem Stage.Befits.mem_of_cancelled
    (befits : (Stage.ending .cancelled).Befits scenario trace)
    (underway : Underway trace front target back) :
    .event (.scriptCancelled target.batch.index) ∈ back := by
  rcases befits with closed | ⟨teller, _, since, setbacks, submitted, told, story, tells⟩
  · exact absurd underway (closed front target back)
  · obtain ⟨rfl, started_eq, rfl⟩ := story.toUnderway.unique underway
    rw [← (Event.batchStarted.inj started_eq).1]
    cases tells with
    | cancelled => exact story.mem_of_told (by simp)

/-- An instance that no border follows was not reported, unless it halted its script. -/
theorem Path.unreported (path : Path scenario (.start scenario.script) trace machine)
    (ends_so : machine.Ends scenario ends) (underway : Underway trace front target back)
    (not_halted : machine.stage ≠ .ending .halted)
    (obeys : Obeys scenario.backend audience trace) :
    Unreported scenario audience ends front target back := by
  refine ⟨underway.inside, ?_⟩
  have befits := path.befits
  by_cases cancelled : machine.stage = .ending .cancelled
  · rw [cancelled] at befits
    obtain ⟨inner, more, rfl⟩ := List.append_of_mem (befits.mem_of_cancelled underway)
    rw [underway.trace_eq, ← List.cons_append, ← List.append_assoc] at obeys
    exact .inl ⟨inner, more, rfl, obeys.cancels _ _ more rfl rfl⟩
  · have elsewhere (phase : Phase) : machine.stage ≠ .ending phase := by
      intro stage_eq
      rw [stage_eq] at befits
      rcases befits.phase_of_ending underway with rfl | rfl <;> contradiction
    cases ends with
    | ok summary =>
        rcases ends_so.2 with ⟨stage_eq, -⟩ | ⟨stage_eq, -⟩
        · rw [stage_eq] at befits
          exact absurd underway (befits front target back)
        · exact absurd stage_eq (elsewhere _)
    | error stop =>
        by_cases unreceived : stop = .failed .receiverGone
        · obtain rfl := unreceived
          refine .inr (.inl ⟨rfl, fun event member => path.unended ends_so event ?_⟩)
          rw [underway.trace_eq]
          exact List.mem_append_right _ (List.mem_cons_of_mem _ member)
        · exact .inr (.inr ⟨⟨stop, rfl⟩,
            Machine.Halts.unsettled ends_so unreceived elsewhere befits underway⟩)

end Verdicts

/-- An instance that is reported succeeds if no error of severity eleven or above was raised in it
and its last call did not fail below the level of the server.  A failed instance whose batch says so
halts its script, which names the first fatal error or what the last call returned, and then only
the session is released.  Behind all others the script goes on with the next one, which is the same
batch again until it has been repeated as often as it is to be.  It is cancelled before or in an
instance only if it was asked to be. -/
theorem verdicts_of_run (policy : Retry.Policy) (backend : Backend) (script : Script)
    (audience : Audience) :
    let scenario : Scenario := { policy, backend, script }
    let outcome := run policy backend script audience
    ∀ front announced back, outcome.trace = front ++ .event (Instance.started announced) :: back →
      ∃ target, script.instances[(begun front).length]? = some target ∧
        target.started = announced.started ∧
        (target.repetition < target.batch.repeatCount →
          script.instances[(begun front).length + 1]? =
            some { target with repetition := target.repetition + 1 }) ∧
        (Decided scenario audience outcome.result front target back ∨
          Unreported scenario audience outcome.result front target back) := by
  intro scenario outcome front announced back trace_eq
  obtain ⟨machine, path, ends_so⟩ := path_of_run policy backend script audience
  have obeys := (sound_of_run policy backend script audience).obeys
  rw [show (run policy backend script audience).trace = _ from trace_eq] at path obeys
  rcases cut_at_border back with inside | ⟨since, border, rest, rfl, inside, borders⟩
  · have underway : Underway (front ++ .event announced.started :: back) front announced back :=
      ⟨rfl, inside⟩
    by_cases halted : machine.stage = .ending .halted
    · obtain ⟨target, place, started_eq, decided⟩ :=
        path.decided_of_halted ends_so underway halted
      exact ⟨target, place, started_eq, Script.next_repeat place, .inl decided⟩
    · obtain ⟨target, place, started_eq⟩ := path.announced
      rw [← started_eq] at path obeys
      exact ⟨target, place, started_eq, Script.next_repeat place,
        .inr (path.unreported ends_so ⟨rfl, inside⟩ halted obeys)⟩
  · rw [← List.cons_append, ← List.append_assoc] at path obeys
    obtain ⟨before, after, to_before, move, onward⟩ := path.split rfl
    obtain ⟨target, place, started_eq, decided⟩ :=
      to_before.decided_of_border move onward ends_so inside borders obeys
    exact ⟨target, place, started_eq, Script.next_repeat place, .inl decided⟩

/-- A failure that is ignored lets its batch be repeated, and one that is not halts the script. -/
theorem verdicts_of_failing_script :
    let missing : ServerError := { number := 208, severity := 16, message := "missing" }
    let warning : ServerError := { number := 50000, severity := 10, message := "low" }
    let backend := Backend.ofLists []
      [.finish (.error (.server missing)), .notify (.error warning) (.finish (.ok none)),
        .finish (.error (.other "driver fault"))] []
    let ignored : Batch :=
      { (default : Batch) with text := "a", repeatCount := 2, errorAction := .ignore }
    let exiting : Batch :=
      { (default : Batch) with index := 1, text := "b", repeatCount := 1, errorAction := .exit }
    let script : Script :=
      { batches := #[ignored, exiting], trailingMessages := [], outputTargets := {} }
    let scenario : Scenario := { policy := .usual, backend, script }
    let outcome := run .usual backend script {}
    let first : Instance := { batch := ignored, repetition := 1 }
    let last : Instance := { batch := exiting, repetition := 1 }
    outcome.events.getLast? = some (.scriptHalted 1 "driver fault") ∧
      (∃ back, outcome.trace = [] ++ .event first.started :: back ∧
        ∃ target, target.started = first.started ∧
          script.instances[1]? = some { target with repetition := target.repetition + 1 } ∧
            Decided scenario {} outcome.result [] target back) ∧
      ∃ front back, outcome.trace = front ++ .event last.started :: back ∧
        ∃ target, target.started = last.started ∧
          Decided scenario {} outcome.result front target back := by
  intro missing warning backend ignored exiting script scenario outcome first last
  have first_begins : outcome.trace = [] ++ .event first.started :: outcome.trace.drop 1 := by
    decide +kernel
  have last_begins : outcome.trace =
      outcome.trace.take 9 ++ .event last.started :: outcome.trace.drop 10 := by
    decide +kernel
  refine ⟨by decide +kernel, ⟨_, first_begins, ?_⟩, ⟨_, _, last_begins, ?_⟩⟩
  · obtain ⟨target, -, started_eq, again, decided | unreported⟩ :=
      verdicts_of_run .usual backend script {} _ first _ first_begins
    · obtain ⟨-, repetition_eq, count_eq, -⟩ := Event.batchStarted.inj started_eq
      exact ⟨target, started_eq, again (by rw [repetition_eq, count_eq]; decide), decided⟩
    · have passed : (outcome.trace.drop 1).any Entry.borders = true := by
        decide +kernel
      obtain ⟨entry, member, borders⟩ := List.any_eq_true.mp passed
      simp [unreported.inside entry member] at borders
  · obtain ⟨target, -, started_eq, -, decided | unreported⟩ :=
      verdicts_of_run .usual backend script {} _ last _ last_begins
    · exact ⟨target, started_eq, decided⟩
    · have finished : outcome.result.isOk = true := by
        decide +kernel
      have uncancelled : .event (.scriptCancelled 1) ∉ outcome.trace.drop 10 := by
        decide +kernel
      rcases unreported.reason with ⟨inner, more, back_eq, -⟩ | ⟨failed, -⟩ | ⟨⟨stop, failed⟩, -⟩
      · rw [back_eq, (Event.batchStarted.inj started_eq).1] at uncancelled
        exact absurd (List.mem_append_right _ List.mem_cons_self) uncancelled
      · rw [show outcome.result = _ from failed] at finished
        contradiction
      · rw [show outcome.result = _ from failed] at finished
        contradiction

end Engine
end SqlScript
