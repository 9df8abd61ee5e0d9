import SqlScript.Proofs.Engine.Custody

/-!
# Attempts of an instance

From the beginning of an instance on, a run tells of the messages of the script, of the errors after
which the batch was submitted again, and of what its last attempt came to.  A batch is submitted
again only after the errors of all attempts before were announced, and only if none of them had sent
a notice.
-/

namespace SqlScript
namespace Engine

open Trace

/-- An instance begins or is completed. -/
def Entry.borders : Entry → Bool
  | .event (.batchStarted ..) | .event (.batchCompleted ..) => true
  | _ => false

/-- The instance began after `before` and is not completed; `since` is what happened from then
on. -/
structure Underway (trace before : List Entry) (target : Instance) (since : List Entry) : Prop where
  trace_eq : trace = before ++ .event target.started :: since
  inside : ∀ entry ∈ since, entry.borders = false

theorem Underway.append {trace before since more : List Entry} {target : Instance}
    (underway : Underway trace before target since)
    (inside : ∀ entry ∈ more, entry.borders = false) :
    Underway (trace ++ more) before target (since ++ more) := by
  refine ⟨?_, List.forall_mem_append.mpr ⟨underway.inside, inside⟩⟩
  rw [underway.trace_eq, List.append_assoc, List.cons_append]

/-- An instance that is being run has begun with the last entry or goes on with it. -/
theorem Underway.of_concat {trace before since : List Entry} {entry : Entry} {target : Instance}
    (underway : Underway (trace ++ [entry]) before target since) :
    entry = .event target.started ∨
      entry.borders = false ∧ ∃ since', Underway trace before target since' := by
  obtain ⟨trace_eq, inside⟩ := underway
  rcases List.eq_nil_or_concat since with rfl | ⟨since', last, rfl⟩
  · exact .inl (List.singleton_inj.mp (List.append_inj' trace_eq rfl).2)
  · rw [List.concat_eq_append, ← List.cons_append, ← List.append_assoc] at trace_eq
    rw [List.concat_eq_append] at inside
    obtain ⟨shorter_eq, last_eq⟩ := List.append_inj' trace_eq rfl
    obtain rfl := List.singleton_inj.mp last_eq
    obtain ⟨inside, last_inside⟩ := List.forall_mem_append.mp inside
    exact .inr ⟨last_inside entry (List.mem_singleton_self entry), since', shorter_eq, inside⟩

/-- No instance is being run. -/
def Trace.Closed (trace : List Entry) : Prop :=
  ∀ before target since, ¬Underway trace before target since

theorem Trace.Closed.append {trace : List Entry} {entry : Entry} (closed : Closed trace)
    (unbegun : ∀ target : Instance, entry ≠ .event target.started) : Closed (trace ++ [entry]) := by
  intro before target since underway
  rcases underway.of_concat with begins | ⟨-, since', underway'⟩
  · exact unbegun target begins
  · exact closed before target since' underway'

/-- An error after which a batch is submitted again. -/
structure Setback where
  delay : Retry.Delay
  failure : SessionError
  deriving DecidableEq, Repr, Inhabited

namespace Instance

/-- The event that announces another attempt. -/
def announcement (target : Instance) (setback : Setback) : Event :=
  .message (some target.batch.index) (retryMessage setback.delay setback.failure)

/-- The events that tell how the last attempt ended. -/
def closing (target : Instance) : Except SessionError (Option Nat) → List Event
  | .ok _ => []
  | .error failure => [target.failureEvent failure]

/-- The event that tells the result of the instance. -/
def verdict (target : Instance) (result : BatchResult) : Event :=
  if result.success = true ∨ target.batch.errorAction.halts = false then
    .batchCompleted target.batch.index target.repetition result
  else .scriptHalted target.batch.index result.failureReason

end Instance

namespace Scenario

variable (scenario : Scenario)

/-- The calls from number `base` on ended with these errors.  None had sent a notice, and the policy
allowed another attempt each time. -/
def Forgives (base : Nat) (setbacks : List Setback) : Prop :=
  ∀ number setback, setbacks[number]? = some setback →
    (scenario.backend.executing (base + number)).notices = [] ∧
      (scenario.backend.executing (base + number)).outcome? = some (.error setback.failure) ∧
        scenario.policy.retryDelay? (number + 1) setback.failure = some setback.delay

/-- The call, which is the attempt of this number, settles what becomes of its batch. -/
def Settles (attempt call : Nat) (final : Except SessionError (Option Nat)) : Prop :=
  (scenario.backend.executing call).outcome? = some final ∧
    ∀ failure, final = .error failure → failure ≠ .cancelled ∧
      ((scenario.backend.executing call).notices ≠ [] ∨
        scenario.policy.retryDelay? attempt failure = none)

end Scenario

/-- An instance has been submitted `calls` times since it began.  After its messages, the setbacks
were announced; `told` is what was told after that. -/
structure Story (scenario : Scenario) (trace before : List Entry) (target : Instance)
    (since : List Entry) (setbacks : List Setback) (calls : Nat) (told : List Event) : Prop
    extends Underway trace before target since where
  known : target ∈ scenario.script.instances
  forgiven : scenario.Forgives (executed before).length setbacks
  calls_eq : (executed since).length = calls
  events_eq : since.filterMap Entry.event? =
    target.greetings.map (.message (some target.batch.index)) ++
      (setbacks.map target.announcement ++ told)

namespace Story

variable {scenario : Scenario} {trace before since : List Entry} {target : Instance}
  {setbacks : List Setback} {calls : Nat} {told : List Event}

theorem append {more : List Entry} {told' : List Event}
    (story : Story scenario trace before target since setbacks calls told)
    (inside : ∀ entry ∈ more, entry.borders = false)
    (told_eq : told' = told ++ more.filterMap Entry.event?) :
    Story scenario (trace ++ more) before target (since ++ more) setbacks
      (calls + (executed more).length) told' where
  toUnderway := story.toUnderway.append inside
  known := story.known
  forgiven := story.forgiven
  calls_eq := by
    rw [executed_append, List.length_append, story.calls_eq]
  events_eq := by
    rw [List.filterMap_append, story.events_eq, told_eq]
    simp only [List.append_assoc]

/-- An error that was announced counts as a setback. -/
theorem announced {setback : Setback}
    (story : Story scenario trace before target since setbacks (setbacks.length + 1)
      [target.announcement setback])
    (quiet : (scenario.backend.executing
      ((executed before).length + setbacks.length)).notices = [])
    (outcome_eq : (scenario.backend.executing
      ((executed before).length + setbacks.length)).outcome? = some (.error setback.failure))
    (delay_eq : scenario.policy.retryDelay? (setbacks.length + 1) setback.failure =
      some setback.delay) :
    Story scenario trace before target since (setbacks ++ [setback])
      (setbacks ++ [setback]).length [] where
  toUnderway := story.toUnderway
  known := story.known
  forgiven := by
    intro number setback' setback_eq
    rcases Nat.lt_or_ge number setbacks.length with earlier | later
    · rw [List.getElem?_append_left earlier] at setback_eq
      exact story.forgiven number setback' setback_eq
    · rw [List.getElem?_append_right later, List.getElem?_singleton] at setback_eq
      split at setback_eq
      · obtain rfl := Option.some.inj setback_eq
        obtain rfl : number = setbacks.length := by omega
        exact ⟨quiet, outcome_eq, delay_eq⟩
      · contradiction
  calls_eq := by rw [story.calls_eq, List.length_append, List.length_singleton]
  events_eq := by
    rw [story.events_eq]
    simp

end Story

/-- What was told of the attempt at hand, and whether it was submitted. -/
inductive Stage.Tells (scenario : Scenario) (target : Instance) :
    (attempt call : Nat) → Stage → (submitted : Nat) → List Event → Prop
  | acquiring {attempt call tries : Nat} :
      Tells scenario target attempt call (.acquiring target attempt tries) 0 []
  | opening {attempt call tries opening : Nat} :
      Tells scenario target attempt call (.opening target attempt tries opening) 0 []
  | opened {attempt call tries : Nat} {session : Session} :
      Tells scenario target attempt call (.opened target attempt tries session) 0 []
  | holding {attempt call : Nat} :
      Tells scenario target attempt call (.holding target attempt) 0 []
  | awaiting {attempt call : Nat} {sent : List Notice} :
      sent <+: (scenario.backend.executing call).notices →
        Tells scenario target attempt call (.awaiting target attempt call sent) 1
          (sent.map target.eventOf)
  | failed {attempt call : Nat} {failure : SessionError} :
      (scenario.backend.executing call).outcome? = some (.error failure) →
        Tells scenario target attempt call (.failed target attempt call failure) 1
          ((scenario.backend.executing call).notices.map target.eventOf)
  | pausing {attempt call last : Nat} {failure : SessionError} :
      Tells scenario target (attempt + 1) call (.pausing target attempt last failure) 0 []
  | settled {attempt call : Nat} {final : Except SessionError (Option Nat)} :
      scenario.Settles attempt call final →
        Tells scenario target attempt call
          (.settled target (.ofCall (scenario.backend.executing call).notices final)) 1
          ((scenario.backend.executing call).notices.map target.eventOf ++ target.closing final)
  | reporting {attempt call : Nat} {final : Except SessionError (Option Nat)} :
      scenario.Settles attempt call final →
        Tells scenario target attempt call
          (.reporting target (BatchResult.ofCall
            (scenario.backend.executing call).notices final).classify) 1
          ((scenario.backend.executing call).notices.map target.eventOf ++ target.closing final)
  | unsubmitted {attempt call : Nat} :
      Tells scenario target attempt call (.leaving target) 0 []
  | abandoned {attempt call : Nat} {sent : List Notice} :
      sent ∈ (scenario.backend.executing call).turns →
        Tells scenario target attempt call (.leaving target) 1 (sent.map target.eventOf)
  | cancelled {attempt call submitted : Nat} {told : List Event} :
      Tells scenario target attempt call (.leaving target) submitted told →
        Tells scenario target attempt call (.ending .cancelled) submitted
          (told ++ [.scriptCancelled target.batch.index])
  | barred {attempt call : Nat} {failure : SessionError} :
      Tells scenario target attempt call (.barred failure) 0
        [.scriptHalted target.batch.index ("failed to open a session: " ++ failure.message)]
  | aborted {attempt call : Nat} :
      (scenario.backend.executing call).outcome? = some (.error .cancelled) →
        Tells scenario target attempt call .aborted 1
          ((scenario.backend.executing call).notices.map target.eventOf ++
            [.scriptHalted target.batch.index target.refusal])

/-- An instance is being run, and so much has been told of it. -/
def Stage.Follows (scenario : Scenario) (trace : List Entry) (stage : Stage) : Prop :=
  ∃ target before since setbacks submitted told,
    Story scenario trace before target since setbacks (setbacks.length + submitted) told ∧
      stage.Tells scenario target (setbacks.length + 1)
        ((executed before).length + setbacks.length) submitted told

namespace Stage.Follows

variable {scenario : Scenario} {trace : List Entry} {stage stage' : Stage}

theorem append {more : List Entry} (follows : stage.Follows scenario trace)
    (inside : ∀ entry ∈ more, entry.borders = false) (quiet : executed more = [])
    (tells : ∀ target attempt call submitted told,
      stage.Tells scenario target attempt call submitted told →
        stage'.Tells scenario target attempt call submitted
          (told ++ more.filterMap Entry.event?)) :
    stage'.Follows scenario (trace ++ more) := by
  obtain ⟨target, before, since, setbacks, submitted, told, story, told_of⟩ := follows
  have longer := story.append inside rfl
  rw [quiet, List.length_nil, Nat.add_zero] at longer
  exact ⟨target, before, _, setbacks, submitted, _, longer, tells _ _ _ _ _ told_of⟩

theorem silent (follows : stage.Follows scenario trace)
    (tells : ∀ target attempt call submitted told,
      stage.Tells scenario target attempt call submitted told →
        stage'.Tells scenario target attempt call submitted told) :
    stage'.Follows scenario (trace ++ (none : Option Entry).toList) := by
  refine follows.append (by simp) rfl fun target attempt call submitted told told_of => ?_
  simpa using tells target attempt call submitted told told_of

theorem call {call : Call} (follows : stage.Follows scenario trace)
    (quiet : executed [.call call] = [])
    (tells : ∀ target attempt call submitted told,
      stage.Tells scenario target attempt call submitted told →
        stage'.Tells scenario target attempt call submitted told) :
    stage'.Follows scenario (trace ++ (some (Entry.call call)).toList) := by
  refine follows.append (by simp [Entry.borders]) quiet ?_
  intro target attempt number submitted told told_of
  have silent : (some (Entry.call call)).toList.filterMap Entry.event? = [] := rfl
  rw [silent, List.append_nil]
  exact tells target attempt number submitted told told_of

theorem event {event : Event} (follows : stage.Follows scenario trace)
    (inside : (Entry.event event).borders = false)
    (tells : ∀ target attempt call submitted told,
      stage.Tells scenario target attempt call submitted told →
        stage'.Tells scenario target attempt call submitted (told ++ [event])) :
    stage'.Follows scenario (trace ++ (some (Entry.event event)).toList) :=
  follows.append (by simpa using inside) rfl tells

end Stage.Follows

/-- The run was halted because the last instance failed. -/
def Trace.Halted (scenario : Scenario) (trace : List Entry) : Prop :=
  ∃ front more target before since setbacks final,
    let call := (executed before).length + setbacks.length
    let result :=
      (BatchResult.ofCall (scenario.backend.executing call).notices final).classify
    trace = front ++ .event (target.verdict result) :: more ∧
      (∀ entry ∈ .event (target.verdict result) :: more, entry.borders = false) ∧
        scenario.Settles (setbacks.length + 1) call final ∧
          Story scenario front before target since setbacks (setbacks.length + 1)
            ((scenario.backend.executing call).notices.map target.eventOf ++ target.closing final)

/-- The trace tells of the instance at hand what befits the stage. -/
def Stage.Befits (scenario : Scenario) (trace : List Entry) (stage : Stage) : Prop :=
  match stage with
  | between | trailing _ | ending .completed | finished => Closed trace
  | greeting target texts =>
      ∃ before since, Underway trace before target since ∧ executed since = [] ∧
        since.filterMap Entry.event? ++ texts.map (.message (some target.batch.index)) =
          target.greetings.map (.message (some target.batch.index))
  | ending .halted => Halted scenario trace
  | leaving target => Closed trace ∨ (leaving target).Follows scenario trace
  | ending .cancelled => Closed trace ∨ (ending .cancelled).Follows scenario trace
  | lost => True
  | stage => stage.Follows scenario trace

variable {scenario : Scenario} {machine machine' : Machine} {label : Option Entry}
  {trace : List Entry}

theorem Stage.Follows.underway {stage : Stage} {target : Instance}
    (follows : stage.Follows scenario trace) (target_eq : stage.target? = some target) :
    ∃ before since, Underway trace before target since := by
  obtain ⟨teller, before, since, setbacks, submitted, told, story, tells⟩ := follows
  obtain rfl : teller = target := by
    cases tells <;> simp_all [Stage.target?]
  exact ⟨before, since, story.toUnderway⟩

/-- Where a request to cancel the run is noticed, what was told of the attempt stands. -/
theorem Stage.Tells.interrupted {target here : Instance} {attempt call submitted : Nat}
    {stage : Stage} {told : List Event}
    (tells : stage.Tells scenario target attempt call submitted told)
    (interrupted : stage.Idles scenario.backend here ∨ stage.Waits scenario.backend here) :
    (Stage.leaving here).Tells scenario target attempt call submitted told := by
  rcases interrupted with idles | waits
  · cases idles with
    | acquiring | opening | refused =>
        cases tells
        exact .unsubmitted
  · cases waits with
    | holding | pausing =>
        cases tells
        exact .unsubmitted
    | awaiting turn =>
        cases tells
        exact .abandoned turn

theorem Stage.Befits.follows {here : Instance} {stage : Stage}
    (befits : stage.Befits scenario trace)
    (interrupted : stage.Idles scenario.backend here ∨ stage.Waits scenario.backend here) :
    stage.Follows scenario trace := by
  rcases interrupted with idles | waits
  · cases idles <;> exact befits
  · cases waits <;> exact befits

theorem Instance.verdict_of_failed {target : Instance} {result : BatchResult}
    (failed : result.success = false) (halts : target.batch.errorAction.halts = true) :
    target.verdict result = .scriptHalted target.batch.index result.failureReason := by
  simp [verdict, failed, halts]

theorem Trace.Halted.append {entry : Entry} (halted : Halted scenario trace)
    (inside : entry.borders = false) : Halted scenario (trace ++ [entry]) := by
  obtain ⟨front, more, target, before, since, setbacks, final, trace_eq, all_inside, told⟩ := halted
  refine ⟨front, more ++ [entry], target, before, since, setbacks, final, ?_, ?_, told⟩
  · rw [trace_eq, List.append_assoc, List.cons_append]
  · rw [← List.cons_append]
    exact List.forall_mem_append.mpr ⟨all_inside, by simpa using inside⟩

theorem Instance.borders_eventOf (target : Instance) (notice : Notice) :
    (Entry.event (target.eventOf notice)).borders = false := by
  cases notice <;> rfl

theorem Instance.borders_failureEvent (target : Instance) (failure : SessionError) :
    (Entry.event (target.failureEvent failure)).borders = false := by
  cases failure <;> rfl

theorem Backend.executed_release (backend : Backend) (session : Nat) :
    executed [.call (backend.release session)] = [] := by
  rcases backend.release_eq session with release_eq | release_eq <;> rw [release_eq] <;> rfl

theorem Move.befits (move : Move scenario machine label machine')
    (knows : machine.Knows scenario) (custody : machine.Custody scenario.backend trace)
    (befits : machine.stage.Befits scenario trace) :
    machine'.stage.Befits scenario (trace ++ label.toList) := by
  cases move with
  | start stage_eq todo_eq => exact ⟨trace, [], ⟨rfl, by simp⟩, rfl, rfl⟩
  | greet stage_eq =>
      rw [stage_eq] at befits
      obtain ⟨before, since, underway, quiet, events_eq⟩ := befits
      refine ⟨before, _, underway.append (by simp [Entry.borders]), ?_, ?_⟩
      · simpa [executed] using quiet
      · simpa [Entry.event?] using events_eq
  | @seek target stage_eq =>
      rw [stage_eq] at befits
      obtain ⟨before, since, underway, quiet, events_eq⟩ := befits
      refine ⟨target, before, since, [], 0, [], ⟨?_, ?_, ?_, ?_, ?_⟩, .acquiring⟩
      · simpa using underway
      · exact knows.here target (by rw [stage_eq]; rfl)
      · simp [Scenario.Forgives]
      · rw [quiet]
        rfl
      · simpa using events_eq
  | replace stage_eq =>
      rw [stage_eq] at befits ⊢
      refine Stage.Follows.call befits (scenario.backend.executed_release _) ?_
      exact fun _ _ _ _ _ => id
  | ask stage_eq =>
      rw [stage_eq] at befits
      refine Stage.Follows.call befits rfl ?_
      rintro _ _ _ _ _ ⟨⟩
      exact .opening
  | reopen stage_eq | keep stage_eq =>
      rw [stage_eq] at befits
      refine Stage.Follows.silent befits ?_
      rintro _ _ _ _ _ ⟨⟩
      exact .acquiring
  | opened stage_eq =>
      rw [stage_eq] at befits
      refine Stage.Follows.silent befits ?_
      rintro _ _ _ _ _ ⟨⟩
      exact .opened
  | giveUp stage_eq =>
      rw [stage_eq] at befits
      refine Stage.Follows.event befits rfl ?_
      rintro _ _ _ _ _ ⟨⟩
      exact .barred
  | hold stage_eq =>
      rw [stage_eq] at befits
      refine Stage.Follows.silent befits ?_
      rintro _ _ _ _ _ ⟨⟩
      exact .holding
  | @submit target attempt session stage_eq held_eq target_eq =>
      rw [stage_eq] at befits
      obtain ⟨_, before, since, setbacks, submitted, told, story, ⟨⟩⟩ := befits
      have executions_eq : machine.executions = (executed before).length + setbacks.length := by
        rw [← custody.executed_length, story.trace_eq]
        simpa [executed] using story.calls_eq
      refine ⟨target, before, _, setbacks, 1, [],
        story.append (by simp [Entry.borders]) (by simp [Entry.event?]), ?_⟩
      rw [executions_eq]
      exact .awaiting List.nil_prefix
  | forward stage_eq sent =>
      rw [stage_eq] at befits
      refine Stage.Follows.event befits (Instance.borders_eventOf _ _) ?_
      rintro _ _ _ _ _ ⟨⟩
      simpa using Stage.Tells.awaiting sent
  | succeed stage_eq outcome_eq =>
      rw [stage_eq] at befits
      refine Stage.Follows.silent befits ?_
      rintro _ _ _ _ _ ⟨⟩
      rw [← List.append_nil (List.map _ _)]
      refine .settled ⟨outcome_eq, ?_⟩
      rintro failure ⟨⟩
  | fail stage_eq outcome_eq =>
      rw [stage_eq] at befits
      refine Stage.Follows.silent befits ?_
      rintro _ _ _ _ _ ⟨⟩
      exact .failed outcome_eq
  | discard stage_eq =>
      rw [stage_eq] at befits ⊢
      refine Stage.Follows.call befits rfl ?_
      exact fun _ _ _ _ _ => id
  | refuse stage_eq =>
      rw [stage_eq] at befits
      refine Stage.Follows.event befits rfl ?_
      rintro _ _ _ _ _ ⟨⟩
      rename_i outcome_eq
      exact .aborted outcome_eq
  | @retry target attempt call failure delay stage_eq kept quiet delay_eq =>
      rw [stage_eq] at befits
      obtain ⟨_, before, since, setbacks, submitted, told, story, ⟨⟩⟩ := befits
      rename_i outcome_eq
      rw [quiet] at story
      let setback : Setback := { delay, failure }
      have told_so : Story scenario (trace ++ [.event (target.announcement setback)]) before target
          (since ++ [.event (target.announcement setback)]) setbacks (setbacks.length + 1)
          [target.announcement setback] :=
        story.append (by simp [Entry.borders, Instance.announcement]) rfl
      refine ⟨target, before, _, _, 0, [], told_so.announced quiet outcome_eq delay_eq, ?_⟩
      rw [List.length_append]
      exact .pausing
  | again stage_eq =>
      rw [stage_eq] at befits
      refine Stage.Follows.silent befits ?_
      rintro _ _ _ _ _ ⟨⟩
      exact .acquiring
  | report stage_eq not_cancelled kept final =>
      rw [stage_eq] at befits
      refine Stage.Follows.event befits (Instance.borders_failureEvent _ _) ?_
      rintro _ _ _ _ _ ⟨⟩
      rename_i outcome_eq
      refine .settled ⟨outcome_eq, ?_⟩
      rintro failure ⟨⟩
      exact ⟨not_cancelled, final⟩
  | judge stage_eq =>
      rw [stage_eq] at befits
      refine Stage.Follows.silent befits ?_
      rintro _ _ _ _ _ ⟨⟩
      rename_i settles
      exact .reporting settles
  | complete stage_eq =>
      intro before target since underway
      rcases underway.of_concat with begins | ⟨inside, -⟩
      · simp [Instance.started] at begins
      · simp [Entry.borders] at inside
  | @halt target result stage_eq failed halts =>
      rw [stage_eq] at befits
      obtain ⟨_, before, since, setbacks, submitted, told, story, ⟨⟩⟩ := befits
      rename_i final settles
      have verdict_eq := Instance.verdict_of_failed failed halts
      refine ⟨trace, [], target, before, since, setbacks, final, ?_, ?_, settles, story⟩
      · rw [verdict_eq]
        rfl
      · simp [verdict_eq, Entry.borders]
  | skip stage_eq =>
      rw [stage_eq] at befits
      refine .inl ?_
      rw [Option.toList_none, List.append_nil]
      exact befits
  | leave interrupted =>
      have interrupted := interrupted.imp_right And.left
      refine .inr ((befits.follows interrupted).silent ?_)
      exact fun _ _ _ _ _ tells => tells.interrupted interrupted
  | letGo waits held_eq =>
      refine .inr ((befits.follows (.inr waits)).call rfl ?_)
      exact fun _ _ _ _ _ tells => tells.interrupted (.inr waits)
  | cancel stage_eq =>
      rw [stage_eq] at befits
      refine befits.imp (fun closed => ?_) fun follows => ?_
      · exact closed.append fun _ => by simp [Instance.started]
      · refine follows.event rfl ?_
        rintro target attempt call submitted told ⟨⟩
        · exact .cancelled .unsubmitted
        · rename_i sent
          exact .cancelled (.abandoned sent)
  | trail stage_eq | wind stage_eq =>
      rw [stage_eq] at befits
      rw [Option.toList_none, List.append_nil]
      exact befits
  | remark stage_eq | conclude stage_eq =>
      rw [stage_eq] at befits
      refine Closed.append befits ?_
      simp [Instance.started]
  | @release phase session stage_eq held_eq =>
      rw [stage_eq] at befits
      change machine.stage.Befits scenario _
      rw [stage_eq]
      cases phase with
      | completed => exact Closed.append befits fun _ => by simp
      | halted => exact Halted.append befits rfl
      | cancelled =>
          refine befits.imp (fun closed => ?_) fun follows => ?_
          · exact closed.append fun _ => by simp
          · exact follows.call (scenario.backend.executed_release _) fun _ _ _ _ _ => id
      | _ =>
          obtain ⟨_, _, _, _, _, _, _, ⟨⟩⟩ := befits
  | lose held_eq => trivial

/-- What is told of instances befits the stage along every path from the start. -/
theorem Path.befits (path : Path scenario (.start scenario.script) trace machine) :
    machine.stage.Befits scenario trace := by
  induction path with
  | nil =>
      intro before target since underway
      simpa using underway.trace_eq
  | snoc before move induction => exact move.befits before.knows before.custody.1 induction

end Engine
end SqlScript
