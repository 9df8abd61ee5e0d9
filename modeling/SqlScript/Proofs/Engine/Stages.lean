import SqlScript.Proofs.Engine.EventStream
import SqlScript.Proofs.Retry.Decisions

/-!
# Stages of a run

A run passes from stage to stage.  A move leads from one stage to the next and adds at most one
entry to the trace; the moves say all that a run can do, whatever its backend does and whenever it
is cancelled, and leave out how a request to cancel reaches it.  What holds of a run is shown for
one move and then along a path of moves.
-/

namespace SqlScript

namespace BatchResult

/-- The result with the error that ended a call. -/
def recordFailure (result : BatchResult) : SessionError → BatchResult
  | .server failure => result.record (.error failure)
  | failure =>
      { result with
        connectionBroken := result.connectionBroken || failure.breaksConnection
        sessionFailure := some failure.message }

/-- The result of a call that sent `notices` and returned `outcome`. -/
def ofCall (notices : List Notice) : Except SessionError (Option Nat) → BatchResult
  | .ok rows => { notices.foldl record {} with rows }
  | .error failure => (notices.foldl record {}).recordFailure failure

end BatchResult

namespace Engine

namespace Behavior

/-- What the call returns, if it returns. -/
def outcome? : Behavior → Option (Except SessionError (Option Nat))
  | finish outcome => some outcome
  | stall => none
  | yield next | notify _ next | cancel next | dropReceiver next => next.outcome?

/-- The notices that the call sends, in order. -/
def notices : Behavior → List Notice
  | finish _ | stall => []
  | yield next | cancel next | dropReceiver next => next.notices
  | notify notice next => notice :: next.notices

/-- The notices sent up to each turn that the call gives to the engine. -/
def turns : Behavior → List (List Notice)
  | finish _ => []
  | stall => [[]]
  | yield next => [] :: next.turns
  | notify notice next => next.turns.map (notice :: ·)
  | cancel next | dropReceiver next => next.turns

end Behavior

/-- How the backend lets a session go that is still good. -/
def Backend.release (backend : Backend) (session : Nat) : Call :=
  if backend.hasClose then .close session else .discard session

theorem Backend.release_eq (backend : Backend) (session : Nat) :
    backend.release session = .close session ∨ backend.release session = .discard session := by
  unfold release
  split
  · exact .inl rfl
  · exact .inr rfl

namespace Instance

/-- The event that announces the instance. -/
def started (target : Instance) : Event :=
  .batchStarted target.batch.index target.repetition target.batch.repeatCount target.batch.span

/-- The messages of the script that come before the instance. -/
def greetings (target : Instance) : List String :=
  if target.repetition = 1 then target.batch.preamble else []

/-- The message of a run that fails because of the backend. -/
def refusal (target : Instance) : String :=
  (RunError.internal "backend cancelled a batch without a cancel request" target.batch.index
    target.batch.span .awaiting).message

/-- The event that reports the error that ended a call. -/
def failureEvent (target : Instance) : SessionError → Event
  | .server failure => target.eventOf (.error failure)
  | failure => .error target.batch.index target.repetition (.session failure.message)

end Instance

/-- What a run is about to do. -/
inductive Stage where
  /-- Begin the next instance, or end the script. -/
  | between
  | greeting (target : Instance) (texts : List String)
  /-- Get a session for an attempt to run the batch; `tries` counts the openings so far. -/
  | acquiring (target : Instance) (attempt tries : Nat)
  | opening (target : Instance) (attempt tries call : Nat)
  /-- Keep a session that has just been opened. -/
  | opened (target : Instance) (attempt tries : Nat) (session : Session)
  /-- Submit the batch. -/
  | holding (target : Instance) (attempt : Nat)
  /-- Wait for the call; the notices in `sent` have been passed on. -/
  | awaiting (target : Instance) (attempt call : Nat) (sent : List Notice)
  | failed (target : Instance) (attempt call : Nat) (failure : SessionError)
  | pausing (target : Instance) (attempt call : Nat) (failure : SessionError)
  | settled (target : Instance) (result : BatchResult)
  | reporting (target : Instance) (result : BatchResult)
  /-- Say that the run is cancelled. -/
  | leaving (target : Instance)
  | trailing (texts : List String)
  /-- Release the session at the end of the run. -/
  | ending (phase : Phase)
  /-- The script is completed. -/
  | finished
  /-- The run has failed because no session could be opened. -/
  | barred (failure : SessionError)
  /-- The run has failed because the backend did what it must not do. -/
  | aborted
  /-- Nobody receives events any more. -/
  | lost
  deriving DecidableEq, Repr, Inhabited

namespace Stage

/-- The instance that is being run. -/
def target? : Stage → Option Instance
  | greeting target _ | acquiring target _ _ | opening target _ _ _ | opened target _ _ _
  | holding target _ | awaiting target _ _ _ | failed target _ _ _ | pausing target _ _ _
  | settled target _ | reporting target _ | leaving target => some target
  | between | trailing _ | ending _ | finished | barred _ | aborted | lost => none

/-- The stage goes with the phase.  A request to cancel the run is answered by the phase alone. -/
def Fits (stage : Stage) (phase : Phase) : Prop :=
  match stage with
  | holding .. | awaiting .. | failed .. | pausing .. => phase = .awaiting
  | between | greeting .. | acquiring .. | opening .. | opened .. | reporting .. =>
      phase ≠ .awaiting
  | _ => True

/-- A request to cancel the run is noticed while the batch of the instance is not being run. -/
inductive Idles (backend : Backend) : Stage → Instance → Prop
  | acquiring {target : Instance} {attempt tries : Nat} :
      Idles backend (.acquiring target attempt tries) target
  /-- The opening gives the engine a turn before it returns. -/
  | opening {target : Instance} {attempt tries call : Nat} :
      (backend.opening call).turns ≠ [] →
        Idles backend (.opening target attempt tries call) target
  /-- The opening failed and is about to be retried. -/
  | refused {target : Instance} {attempt tries call : Nat} {failure : SessionError} :
      (backend.opening call).outcome? = some (.error failure) →
        Idles backend (.opening target attempt tries call) target

/-- A request to cancel the run is noticed while the instance may have a call in flight. -/
inductive Waits (backend : Backend) : Stage → Instance → Prop
  | holding {target : Instance} {attempt : Nat} : Waits backend (.holding target attempt) target
  | awaiting {target : Instance} {attempt call : Nat} {sent : List Notice} :
      sent ∈ (backend.executing call).turns →
        Waits backend (.awaiting target attempt call sent) target
  | pausing {target : Instance} {attempt call : Nat} {failure : SessionError} :
      Waits backend (.pausing target attempt call failure) target

theorem Idles.target?_eq {backend : Backend} {stage : Stage} {target : Instance}
    (idles : stage.Idles backend target) : stage.target? = some target := by
  cases idles <;> rfl

theorem Waits.target?_eq {backend : Backend} {stage : Stage} {target : Instance}
    (waits : stage.Waits backend target) : stage.target? = some target := by
  cases waits <;> rfl

theorem Idles.not_awaiting {backend : Backend} {stage : Stage} {target : Instance} {phase : Phase}
    (idles : stage.Idles backend target) (fits : stage.Fits phase) : phase ≠ .awaiting := by
  cases idles <;> exact fits

theorem Waits.awaiting_phase {backend : Backend} {stage : Stage} {target : Instance} {phase : Phase}
    (waits : stage.Waits backend target) (fits : stage.Fits phase) : phase = .awaiting := by
  cases waits <;> exact fits

/-- No event has ended the run yet. -/
def Unended : Stage → Prop
  | ending phase => phase = .completed
  | finished | barred _ | aborted => False
  | _ => True

/-- The run may stay at the stage because a call does not return. -/
def Stalls (backend : Backend) : Stage → Prop
  | acquiring .. | ending _ => ∃ call, (backend.closing call).outcome? = none
  | opening _ _ _ call => (backend.opening call).outcome? = none
  | awaiting _ _ call _ => (backend.executing call).outcome? = none
  | _ => False

end Stage

/-- The session that is held, and the calls so far. -/
structure Ledger where
  held : Option Session := none
  openings : Nat := 0
  executions : Nat := 0
  /-- How many sessions have opened. -/
  sessions : Nat := 0
  deriving DecidableEq, Repr, Inhabited

/-- Where a run stands. -/
structure Machine extends Ledger where
  stage : Stage
  /-- The instances that have not begun. -/
  todo : List Instance
  /-- The targets of the sessions that have opened, in order. -/
  landed : List (Option String) := []
  deriving DecidableEq, Repr, Inhabited

/-- Where the run of a script begins. -/
def Machine.start (script : Script) : Machine where
  stage := .between
  todo := script.instances

/-- The policy, the backend and the script of a run. -/
structure Scenario where
  policy : Retry.Policy
  backend : Backend
  script : Script

/-- A step of a run, with the entry that it adds to the trace. -/
inductive Move (scenario : Scenario) :
    Machine → Option Entry → Machine → Prop
  | start {machine target rest} :
      machine.stage = .between → machine.todo = target :: rest →
        Move scenario machine (some (.event target.started))
          { machine with stage := .greeting target target.greetings, todo := rest }
  | greet {machine target text texts} :
      machine.stage = .greeting target (text :: texts) →
        Move scenario machine
          (some (.event (.message (some target.batch.index) text)))
          { machine with stage := .greeting target texts }
  | seek {machine target} :
      machine.stage = .greeting target [] →
        Move scenario machine none { machine with stage := .acquiring target 1 0 }
  | replace {machine target attempt tries session} :
      machine.stage = .acquiring target attempt tries → machine.held = some session →
        session.target ≠ target.batch.connectTarget →
          Move scenario machine (some (.call (scenario.backend.release session.number)))
            { machine with held := none }
  | ask {machine target attempt tries} :
      machine.stage = .acquiring target attempt tries → machine.held = none →
        tries < scenario.policy.maxAttempts.toNat →
          Move scenario machine
            (some (.call (.openSession target.batch.connectTarget)))
            { machine with
              stage := .opening target attempt (tries + 1) machine.openings
              openings := machine.openings + 1 }
  | reopen {machine target attempt tries call failure delay} :
      machine.stage = .opening target attempt tries call →
        (scenario.backend.opening call).outcome? = some (.error failure) →
          scenario.policy.retryDelay? tries failure = some delay →
            Move scenario machine none
              { machine with stage := .acquiring target attempt tries }
  | opened {machine target attempt tries call rows} :
      machine.stage = .opening target attempt tries call →
        (scenario.backend.opening call).outcome? = some (.ok rows) →
          Move scenario machine none
            { machine with
              stage := .opened target attempt tries
                { number := machine.sessions + 1, target := target.batch.connectTarget }
              sessions := machine.sessions + 1
              landed := machine.landed ++ [target.batch.connectTarget] }
  | keep {machine target attempt tries session} :
      machine.stage = .opened target attempt tries session →
        Move scenario machine none
          { machine with stage := .acquiring target attempt tries, held := some session }
  | giveUp {machine target attempt tries call failure} :
      machine.stage = .opening target attempt tries call →
        (scenario.backend.opening call).outcome? = some (.error failure) →
          scenario.policy.retryDelay? tries failure = none →
            Move scenario machine
              (some (.event (.scriptHalted target.batch.index
                ("failed to open a session: " ++ failure.message))))
              { machine with stage := .barred failure }
  | hold {machine target attempt tries session} :
      machine.stage = .acquiring target attempt tries → machine.held = some session →
        session.target = target.batch.connectTarget →
          Move scenario machine none { machine with stage := .holding target attempt }
  | submit {machine target attempt session} :
      machine.stage = .holding target attempt → machine.held = some session →
        session.target = target.batch.connectTarget →
          attempt ≤ scenario.policy.maxAttempts.toNat →
            Move scenario machine
              (some (.call (.execute session.number target.batch.text)))
              { machine with
                stage := .awaiting target attempt machine.executions []
                executions := machine.executions + 1 }
  | forward {machine target attempt call sent notice} :
      machine.stage = .awaiting target attempt call sent →
        sent ++ [notice] <+: (scenario.backend.executing call).notices →
          Move scenario machine (some (.event (target.eventOf notice)))
            { machine with stage := .awaiting target attempt call (sent ++ [notice]) }
  | succeed {machine target attempt call rows} :
      machine.stage = .awaiting target attempt call (scenario.backend.executing call).notices →
        (scenario.backend.executing call).outcome? = some (.ok rows) →
          Move scenario machine none
            { machine with
              stage :=
                .settled target (.ofCall (scenario.backend.executing call).notices (.ok rows)) }
  | fail {machine target attempt call failure} :
      machine.stage = .awaiting target attempt call (scenario.backend.executing call).notices →
        (scenario.backend.executing call).outcome? = some (.error failure) →
          Move scenario machine none
            { machine with stage := .failed target attempt call failure }
  | discard {machine target attempt call failure session} :
      machine.stage = .failed target attempt call failure → machine.held = some session →
        failure.breaksConnection = true ∨ failure = .cancelled →
          Move scenario machine (some (.call (.discard session.number)))
            { machine with held := none }
  | refuse {machine target attempt call} :
      machine.stage = .failed target attempt call .cancelled → machine.held = none →
        Move scenario machine
          (some (.event (.scriptHalted target.batch.index target.refusal)))
          { machine with stage := .aborted }
  | retry {machine target attempt call failure delay} :
      machine.stage = .failed target attempt call failure →
        (failure.breaksConnection = true → machine.held = none) →
          (scenario.backend.executing call).notices = [] →
            scenario.policy.retryDelay? attempt failure = some delay →
              Move scenario machine
                (some (.event (.message (some target.batch.index)
                  (Instance.retryMessage delay failure))))
                { machine with stage := .pausing target attempt call failure }
  | again {machine target attempt call failure} :
      machine.stage = .pausing target attempt call failure →
        Move scenario machine none
          { machine with stage := .acquiring target (attempt + 1) 0 }
  | report {machine target attempt call failure} :
      machine.stage = .failed target attempt call failure → failure ≠ .cancelled →
        (failure.breaksConnection = true → machine.held = none) →
          (scenario.backend.executing call).notices ≠ [] ∨
              scenario.policy.retryDelay? attempt failure = none →
            Move scenario machine (some (.event (target.failureEvent failure)))
              { machine with
                stage := .settled target
                  (.ofCall (scenario.backend.executing call).notices (.error failure)) }
  | judge {machine target result} :
      machine.stage = .settled target result →
        Move scenario machine none
          { machine with stage := .reporting target result.classify }
  | complete {machine target result} :
      machine.stage = .reporting target result →
        result.success = true ∨ target.batch.errorAction.halts = false →
          Move scenario machine
            (some (.event (.batchCompleted target.batch.index target.repetition result)))
            { machine with stage := .between }
  | halt {machine target result} :
      machine.stage = .reporting target result →
        result.success = false → target.batch.errorAction.halts = true →
          Move scenario machine
            (some (.event (.scriptHalted target.batch.index result.failureReason)))
            { machine with stage := .ending .halted }
  | skip {machine target rest} :
      machine.stage = .between → machine.todo = target :: rest →
        Move scenario machine none { machine with stage := .leaving target }
  | leave {machine target} :
      machine.stage.Idles scenario.backend target ∨
          machine.stage.Waits scenario.backend target ∧ machine.held = none →
        Move scenario machine none { machine with stage := .leaving target }
  | letGo {machine target session} :
      machine.stage.Waits scenario.backend target → machine.held = some session →
        Move scenario machine (some (.call (.discard session.number)))
          { machine with stage := .leaving target, held := none }
  | cancel {machine target} :
      machine.stage = .leaving target →
        Move scenario machine (some (.event (.scriptCancelled target.batch.index)))
          { machine with stage := .ending .cancelled }
  | trail {machine} :
      machine.stage = .between → machine.todo = [] →
        Move scenario machine none
          { machine with stage := .trailing scenario.script.trailingMessages }
  | remark {machine text texts} :
      machine.stage = .trailing (text :: texts) →
        Move scenario machine (some (.event (.message none text)))
          { machine with stage := .trailing texts }
  | wind {machine} :
      machine.stage = .trailing [] →
        Move scenario machine none { machine with stage := .ending .completed }
  | release {machine phase session} :
      machine.stage = .ending phase → machine.held = some session →
        Move scenario machine (some (.call (scenario.backend.release session.number)))
          { machine with held := none }
  | conclude {machine summary} :
      machine.stage = .ending .completed → machine.held = none → summary.phase = .completed →
        Move scenario machine (some (.event (.scriptCompleted summary)))
          { machine with stage := .finished }
  | lose {machine session} :
      machine.held = some session → machine.stage.Unended →
        Move scenario machine (some (.call (.discard session.number)))
          { machine with stage := .lost, held := none }

/-- Moves one after the other, with the entries that they add to the trace. -/
inductive Path (scenario : Scenario) (initial : Machine) :
    List Entry → Machine → Prop
  | nil : Path scenario initial [] initial
  | snoc {entries before label after} :
      Path scenario initial entries before →
        Move scenario before label after →
          Path scenario initial (entries ++ label.toList) after

variable {scenario : Scenario}

namespace Move

/-- Where an event is sent, none has ended the run. -/
theorem unended {machine machine' : Machine} {event : Event}
    (move : Move scenario machine (some (.event event)) machine') : machine.stage.Unended := by
  cases move <;> simp_all [Stage.Unended]

/-- Where a batch is submitted, and where the run stands then. -/
theorem execute_origin {machine machine' : Machine} {session : Nat} {text : String}
    (move : Move scenario machine (some (.call (.execute session text))) machine') :
    ∃ target attempt held, machine.stage = .holding target attempt ∧
      machine'.stage = .awaiting target attempt machine.executions [] ∧
        machine.held = some held ∧ held.number = session ∧
          held.target = target.batch.connectTarget ∧ target.batch.text = text := by
  generalize label_eq : some (Entry.call (.execute session text)) = label at move
  cases move with
  | @submit target attempt held stage_eq held_eq target_eq =>
      simp only [Option.some.injEq, Entry.call.injEq, Call.execute.injEq] at label_eq
      exact ⟨target, attempt, held, stage_eq, rfl, held_eq, label_eq.1.symm, target_eq,
        label_eq.2.symm⟩
  | replace | release =>
      rcases scenario.backend.release_eq _ with release_eq | release_eq
      all_goals
        rw [release_eq] at label_eq
        simp at label_eq
  | _ => simp at label_eq

/-- Where a session is to be opened, and where the run stands then. -/
theorem open_origin {machine machine' : Machine} {wanted : Option String}
    (move : Move scenario machine (some (.call (.openSession wanted))) machine') :
    ∃ target attempt tries, machine.stage = .acquiring target attempt tries ∧
      machine'.stage = .opening target attempt (tries + 1) machine.openings ∧
        machine.held = none ∧ machine'.held = none ∧ target.batch.connectTarget = wanted := by
  generalize label_eq : some (Entry.call (.openSession wanted)) = label at move
  cases move with
  | @ask target attempt tries stage_eq held_eq =>
      simp only [Option.some.injEq, Entry.call.injEq, Call.openSession.injEq] at label_eq
      exact ⟨target, attempt, tries, stage_eq, rfl, held_eq, held_eq, label_eq.symm⟩
  | replace | release =>
      rcases scenario.backend.release_eq _ with release_eq | release_eq
      all_goals
        rw [release_eq] at label_eq
        simp at label_eq
  | _ => simp at label_eq

end Move

namespace Path

/-- A path can be cut before and behind each of its entries. -/
theorem split {initial final : Machine} {entries front back : List Entry} {entry : Entry}
    (path : Path scenario initial entries final)
    (entries_eq : entries = front ++ entry :: back) :
    ∃ before after, Path scenario initial front before ∧
      Move scenario before (some entry) after ∧
        Path scenario after back final := by
  induction path generalizing back with
  | nil => simp at entries_eq
  | @snoc entries last label final path move induction =>
      cases label with
      | none =>
          rw [Option.toList_none, List.append_nil] at entries_eq
          obtain ⟨before, after, to_before, here, to_last⟩ := induction entries_eq
          refine ⟨before, after, to_before, here, ?_⟩
          simpa using to_last.snoc move
      | some added =>
          rw [Option.toList_some] at entries_eq
          rcases List.eq_nil_or_concat back with rfl | ⟨inner, last_entry, rfl⟩
          · obtain ⟨rfl, entry_eq⟩ := List.append_inj' entries_eq rfl
            obtain rfl : added = entry := by simpa using entry_eq
            exact ⟨last, final, path, move, .nil⟩
          · rw [List.concat_eq_append] at entries_eq ⊢
            have aligned : entries ++ [added] = (front ++ entry :: inner) ++ [last_entry] := by
              rw [entries_eq, List.append_assoc, List.cons_append]
            obtain ⟨shorter_eq, added_eq⟩ := List.append_inj' aligned rfl
            obtain rfl : added = last_entry := by simpa using added_eq
            obtain ⟨before, after, to_before, here, to_last⟩ := induction shorter_eq
            refine ⟨before, after, to_before, here, ?_⟩
            exact to_last.snoc move

/-- What comes next on a path: as long as its entries are `quiet`, its machines stay such that
`holds`, and an entry that is not has `comes`. -/
theorem next {initial final : Machine} {entries : List Entry}
    (path : Path scenario initial entries final) (holds : Machine → Prop)
    (quiet comes : Entry → Prop)
    (steps : ∀ {machine label machine'}, Move scenario machine label machine' → holds machine →
      (∀ entry, label = some entry → quiet entry) ∧ holds machine' ∨
        ∃ entry, label = some entry ∧ comes entry)
    (begins : holds initial) :
    (∀ entry ∈ entries, quiet entry) ∧ holds final ∨
      ∃ before entry rest, entries = before ++ entry :: rest ∧
        (∀ entry ∈ before, quiet entry) ∧ comes entry := by
  induction path with
  | nil => exact .inl ⟨by simp, begins⟩
  | @snoc entries last label final path move induction =>
      rcases induction with ⟨all_quiet, holds_last⟩ | ⟨before, entry, rest, rfl, all_quiet, comes⟩
      · rcases steps move holds_last with ⟨label_quiet, holds_final⟩ | ⟨entry, rfl, comes⟩
        · refine .inl ⟨List.forall_mem_append.mpr ⟨all_quiet, fun entry member => ?_⟩, holds_final⟩
          exact label_quiet entry (Option.mem_toList.mp member)
        · exact .inr ⟨entries, entry, [], rfl, all_quiet, comes⟩
      · exact .inr ⟨before, entry, rest ++ label.toList, by simp, all_quiet, comes⟩

end Path

/-- The instances at hand are those of the script.  The one that is being run comes right before
those that have not begun. -/
structure Machine.Knows (scenario : Scenario) (machine : Machine) : Prop where
  todo : machine.todo <:+ scenario.script.instances
  here : ∀ target, machine.stage.target? = some target → target ∈ scenario.script.instances
  place : ∀ target, machine.stage.target? = some target → machine.stage ≠ .leaving target →
    target :: machine.todo <:+ scenario.script.instances

theorem Move.knows {machine machine' : Machine} {label : Option Entry}
    (move : Move scenario machine label machine') (knows : machine.Knows scenario) :
    machine'.Knows scenario := by
  obtain ⟨todo, here, place⟩ := knows
  cases move with
  | start stage_eq todo_eq =>
      rw [todo_eq] at todo
      refine ⟨(List.suffix_cons _ _).trans todo, ?_, ?_⟩
      · rintro _ ⟨⟩
        exact todo.subset List.mem_cons_self
      · rintro _ ⟨⟩ -
        exact todo
  | skip stage_eq todo_eq =>
      refine ⟨todo, ?_, ?_⟩
      · rintro _ ⟨⟩
        exact todo.subset (by simp [todo_eq])
      · rintro _ ⟨⟩ absurd
        contradiction
  | leave interrupted =>
      refine ⟨todo, ?_, ?_⟩
      · rintro _ ⟨⟩
        rcases interrupted with idles | ⟨waits, -⟩
        · exact here _ idles.target?_eq
        · exact here _ waits.target?_eq
      · rintro _ ⟨⟩ absurd
        contradiction
  | letGo waits =>
      refine ⟨todo, ?_, ?_⟩
      · rintro _ ⟨⟩
        exact here _ waits.target?_eq
      · rintro _ ⟨⟩ absurd
        contradiction
  | _ =>
      refine ⟨todo, fun target target_eq => here target ?_, fun target target_eq _ => ?_⟩
      · simp_all [Stage.target?]
      · simp_all [Stage.target?]

theorem Path.knows {entries : List Entry} {machine : Machine}
    (path : Path scenario (.start scenario.script) entries machine) : machine.Knows scenario := by
  induction path with
  | nil => exact ⟨List.suffix_refl _, nofun, nofun⟩
  | snoc _ move induction => exact move.knows induction

end Engine
end SqlScript
