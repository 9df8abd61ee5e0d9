import SqlScript.Proofs.Engine.Budgets

/-!
# Retrying batches

Every error with which an attempt ends is told by exactly one event: it is announced if the batch is
submitted again, and reported if it is not.  A batch that sends no notices is retried as the policy
retries any operation.
-/

namespace SqlScript
namespace Engine

open Trace

/-- What was told of the last attempt of an instance once the run had passed it or had ended, and
what happened then. -/
inductive Concludes (scenario : Scenario) (result : Except Stop Summary) (target : Instance)
    (attempt call : Nat) : (submitted : Nat) → List Event → List Entry → Prop
  | settled {final : Except SessionError (Option Nat)} {rest : List Entry} :
      scenario.Settles attempt call final →
        Concludes scenario result target attempt call 1
          ((scenario.backend.executing call).notices.map target.eventOf ++ target.closing final)
          (.event (target.verdict (BatchResult.ofCall
            (scenario.backend.executing call).notices final).classify) :: rest)
  /-- The backend cancelled the call without being asked. -/
  | refused :
      (scenario.backend.executing call).outcome? = some (.error .cancelled) →
        Concludes scenario result target attempt call 1
          ((scenario.backend.executing call).notices.map target.eventOf ++
            [.scriptHalted target.batch.index target.refusal]) []
  /-- The run was cancelled during the call. -/
  | abandoned {sent : List Notice} :
      sent ∈ (scenario.backend.executing call).turns →
        Concludes scenario result target attempt call 1
          (sent.map target.eventOf ++ [.scriptCancelled target.batch.index]) []
  /-- The call does not return. -/
  | stalled {sent : List Notice} :
      sent <+: (scenario.backend.executing call).notices →
        (scenario.backend.executing call).outcome? = none → result = .error .stalled →
          Concludes scenario result target attempt call 1 (sent.map target.eventOf) []
  | cancelled : Concludes scenario result target attempt call 0
      [.scriptCancelled target.batch.index] []
  /-- No session could be opened. -/
  | barred {failure : SessionError} :
      result = .error (.failed (.connection failure)) →
        Concludes scenario result target attempt call 0
          [.scriptHalted target.batch.index ("failed to open a session: " ++ failure.message)] []
  /-- A session is neither opened nor refused. -/
  | waiting :
      result = .error .stalled → Concludes scenario result target attempt call 0 [] []

/-- What a run tells of an instance that began after `front`. -/
def Courses (scenario : Scenario) (result : Except Stop Summary) (front : List Entry)
    (target : Instance) (back : List Entry) : Prop :=
  ∃ since rest setbacks submitted told, back = since ++ rest ∧
    Story scenario (front ++ .event target.started :: since) front target since setbacks
      (setbacks.length + submitted) told ∧
    Concludes scenario result target (setbacks.length + 1)
      ((executed front).length + setbacks.length) submitted told rest

variable {scenario : Scenario} {trace : List Entry} {machine machine' : Machine}

/-- There is only one latest beginning of an instance. -/
theorem Underway.unique {before before' since since' : List Entry} {target target' : Instance}
    (underway : Underway trace before target since)
    (underway' : Underway trace before' target' since') :
    before = before' ∧ target.started = target'.started ∧ since = since' := by
  have trace_eq := underway.trace_eq.symm.trans underway'.trace_eq
  have begins (target : Instance) : (Entry.event target.started).borders = true := rfl
  rcases List.append_eq_append_iff.mp trace_eq with ⟨more, rfl, rest_eq⟩ | ⟨more, rfl, rest_eq⟩
  · cases more with
    | nil => simpa [eq_comm] using rest_eq
    | cons entry more =>
        obtain ⟨-, since_eq⟩ := List.cons_eq_cons.mp rest_eq
        have inside := underway.inside (.event target'.started) (by simp [since_eq])
        simp [begins] at inside
  · cases more with
    | nil => simpa [eq_comm] using rest_eq
    | cons entry more =>
        obtain ⟨-, since_eq⟩ := List.cons_eq_cons.mp rest_eq
        have inside := underway'.inside (.event target.started) (by simp [since_eq])
        simp [begins] at inside

theorem Scenario.Forgives.length_le {base : Nat} {setbacks : List Setback}
    (forgives : scenario.Forgives base setbacks) :
    setbacks.length ≤ scenario.policy.maxRetries.toNat := by
  rcases List.eq_nil_or_concat setbacks with rfl | ⟨earlier, last, rfl⟩
  · exact Nat.zero_le _
  · obtain ⟨-, -, delay_eq⟩ := forgives earlier.length last (by simp)
    simpa using Retry.Policy.le_of_retryDelay? delay_eq

theorem Trace.cut_at_border (entries : List Entry) :
    (∀ entry ∈ entries, entry.borders = false) ∨
      ∃ front border back, entries = front ++ border :: back ∧
        (∀ entry ∈ front, entry.borders = false) ∧ border.borders = true := by
  induction entries with
  | nil => exact .inl fun entry member => nomatch member
  | cons entry entries induction =>
      cases borders : entry.borders with
      | true => exact .inr ⟨[], entry, entries, rfl, by simp, borders⟩
      | false =>
          rcases induction with inside | ⟨front, border, back, rfl, inside, is_border⟩
          · exact .inl (List.forall_mem_cons.mpr ⟨borders, inside⟩)
          · exact .inr ⟨entry :: front, border, back, rfl,
              List.forall_mem_cons.mpr ⟨borders, inside⟩, is_border⟩

/-- Only the beginning of an instance and its result part what is told of two instances. -/
theorem Move.border_origin {entry : Entry} (move : Move scenario machine (some entry) machine')
    (borders : entry.borders = true) :
    machine.stage = .between ∨ ∃ target result, machine.stage = .reporting target result ∧
      entry = .event (target.verdict result) ∧
        (result.success = true ∨ target.batch.errorAction.halts = false) ∧
          machine'.stage = .between ∧ machine'.todo = machine.todo := by
  generalize label_eq : some entry = label at move
  cases move with
  | start stage_eq => exact .inl stage_eq
  | @complete target result stage_eq goes_on =>
      obtain rfl := Option.some.inj label_eq
      refine .inr ⟨target, result, stage_eq, ?_, goes_on, rfl, rfl⟩
      rw [Instance.verdict, if_pos goes_on]
  | forward | report =>
      obtain rfl := Option.some.inj label_eq
      simp [Instance.borders_eventOf, Instance.borders_failureEvent] at borders
  | _ =>
      first
        | contradiction
        | obtain rfl := Option.some.inj label_eq
          simp [Entry.borders] at borders

section Courses

variable {front before since back : List Entry} {target teller : Instance}
  {result : Except Stop Summary}

/-- An instance that no border follows is the last one. -/
theorem Story.courses {setbacks : List Setback} {submitted : Nat} {told : List Event}
    (story : Story scenario trace before teller since setbacks (setbacks.length + submitted) told)
    (underway : Underway trace front target back)
    (concludes : Concludes scenario result teller (setbacks.length + 1)
      ((executed before).length + setbacks.length) submitted told []) :
    ∃ teller ∈ scenario.script.instances, teller.started = target.started ∧
      Courses scenario result front teller back := by
  obtain ⟨rfl, started_eq, rfl⟩ := story.toUnderway.unique underway
  rw [story.trace_eq] at story
  exact ⟨teller, story.known, started_eq, since, [], setbacks, submitted, told,
    (List.append_nil since).symm, story, concludes⟩

theorem Trace.Halted.courses (halted : Halted scenario trace)
    (underway : Underway trace front target back) :
    ∃ teller ∈ scenario.script.instances, teller.started = target.started ∧
      Courses scenario result front teller back := by
  obtain ⟨until_verdict, more, teller, before, since, setbacks, final, trace_eq, inside, settles,
    story⟩ := halted
  rw [story.trace_eq, List.append_assoc, List.cons_append] at trace_eq
  have last : Underway trace before teller (since ++ _) :=
    ⟨trace_eq, List.forall_mem_append.mpr ⟨story.inside, inside⟩⟩
  obtain ⟨rfl, started_eq, rfl⟩ := last.unique underway
  rw [story.trace_eq] at story
  exact ⟨teller, story.known, started_eq, since, _, setbacks, 1, _, rfl, story, .settled settles⟩

theorem Stage.Befits.courses_of_ending {phase : Phase}
    (befits : (Stage.ending phase).Befits scenario trace)
    (underway : Underway trace front target back) :
    ∃ teller ∈ scenario.script.instances, teller.started = target.started ∧
      Courses scenario result front teller back := by
  cases phase with
  | completed => exact absurd underway (befits front target back)
  | halted => exact Trace.Halted.courses befits underway
  | cancelled =>
      rcases befits with closed | ⟨teller, before, since, setbacks, submitted, told, story, tells⟩
      · exact absurd underway (closed front target back)
      · refine story.courses underway ?_
        cases tells with
        | cancelled tells =>
            cases tells with
            | unsubmitted => exact .cancelled
            | abandoned turn => exact .abandoned turn
  | _ => obtain ⟨_, _, _, _, _, _, _, ⟨⟩⟩ := befits

theorem Stage.Stalls.courses {stage : Stage} (stalls : stage.Stalls scenario.backend)
    (befits : stage.Befits scenario trace) (underway : Underway trace front target back) :
    ∃ teller ∈ scenario.script.instances, teller.started = target.started ∧
      Courses scenario (.error .stalled) front teller back := by
  cases stage with
  | acquiring | opening =>
      obtain ⟨teller, before, since, setbacks, submitted, told, story, tells⟩ := befits
      cases tells
      exact story.courses underway (.waiting rfl)
  | awaiting =>
      obtain ⟨teller, before, since, setbacks, submitted, told, story, tells⟩ := befits
      cases tells with
      | awaiting sent => exact story.courses underway (.stalled sent stalls rfl)
  | ending => exact befits.courses_of_ending underway
  | _ => exact stalls.elim

end Courses

/-- The outcomes of calls from number `base` on, as far as the calls return. -/
def Backend.outcomesFrom (backend : Backend) (base number : Nat) :
    Except SessionError (Option Nat) :=
  (backend.executing (base + number)).outcome?.getD (.ok none)

/-- Neither those who follow the run of `trace` nor its backend keep an instance from being settled:
nobody asks for the run to be cancelled, all calls return, and where a session cannot be opened the
policy allows another try. -/
structure Scenario.Unhindered (scenario : Scenario) (audience : Audience) (trace : List Entry) :
    Prop where
  unasked : ¬Petitioned scenario.backend audience trace
  returned : scenario.backend.Returns
  acquired : ∀ front wanted rest failure, trace = front ++ .call (.openSession wanted) :: rest →
    (scenario.backend.opening (Trace.wanted front).length).outcome? = some (.error failure) →
      scenario.policy.retryDelay? (tries front + 1) failure ≠ none

/-- A run that failed because no session could be opened says so, and has no try left. -/
theorem Path.barred_origin {failure : SessionError}
    (path : Path scenario (.start scenario.script) trace machine)
    (stage_eq : machine.stage = .barred failure) :
    ∃ front wanted last, trace = front ++ [.call (.openSession wanted), last] ∧
      (scenario.backend.opening (Trace.wanted front).length).outcome? = some (.error failure) ∧
        scenario.policy.retryDelay? (tries front + 1) failure = none := by
  cases path with
  | nil => contradiction
  | @snoc entries before label after to_before move =>
      cases move with
      | giveUp opening outcome_eq given_up =>
          obtain rfl := Stage.barred.inj stage_eq
          obtain ⟨front, rfl, rfl⟩ := to_before.opening_origin opening
          have spends := to_before.spends.2
          rw [opening] at spends
          obtain ⟨-, -, tries_eq⟩ := spends
          rw [spent, tries_append (by simp [Entry.begins])] at tries_eq
          obtain rfl : tries front + 1 = _ := tries_eq
          exact ⟨front, _, _, List.append_assoc _ _ _, outcome_eq, given_up⟩
      | replace other | discard other | release other =>
          have same : before.stage = _ := stage_eq
          simp [other] at same
      | _ => contradiction

/-- Nothing kept the instance from being settled that ran last. -/
structure Outcome.Undisturbed (outcome : Outcome) : Prop where
  uncancelled : ∀ index, .event (.scriptCancelled index) ∉ outcome.trace
  acquired : ∀ failure, outcome.result ≠ .error (.failed (.connection failure))
  returned : outcome.result ≠ .error .stalled

theorem Scenario.Unhindered.undisturbed {policy : Retry.Policy} {backend : Backend}
    {script : Script} {audience : Audience}
    (unhindered : ({ policy, backend, script } : Scenario).Unhindered audience
      (run policy backend script audience).trace) :
    (run policy backend script audience).Undisturbed where
  uncancelled := uncancelled_of_run unhindered.unasked
  acquired failure refused := by
    obtain ⟨machine, path, ends⟩ := path_of_run policy backend script audience
    rw [refused] at ends
    obtain ⟨front, wanted, last, trace_eq, outcome_eq, given_up⟩ := path.barred_origin ends.1
    exact unhindered.acquired front wanted [last] failure trace_eq outcome_eq given_up
  returned stalled := by
    obtain ⟨machine, -, ends⟩ := path_of_run policy backend script audience
    rw [stalled] at ends
    exact unhindered.returned.not_stalls machine.stage ends

/-- What was told of an instance was told since it began. -/
theorem Story.mem_of_told {before since : List Entry} {target : Instance}
    {setbacks : List Setback} {calls : Nat} {told : List Event} {event : Event}
    (story : Story scenario trace before target since setbacks calls told) (member : event ∈ told) :
    .event event ∈ since := by
  have told_since : event ∈ since.filterMap Entry.event? := by
    rw [story.events_eq]
    exact List.mem_append_right _ (List.mem_append_right _ member)
  obtain ⟨entry, in_since, event_eq⟩ := List.mem_filterMap.mp told_since
  cases entry with
  | call => contradiction
  | event sent =>
      obtain rfl := Option.some.inj event_eq
      exact in_since

/-- The policy waits after the setbacks of an instance and ends with its last attempt. -/
theorem Scenario.Settles.rehearsed {base : Nat} {setbacks : List Setback}
    {final : Except SessionError (Option Nat)} (limited : scenario.policy.maxRetries + 1 ≠ 0)
    (forgiven : scenario.Forgives base setbacks)
    (settles : scenario.Settles (setbacks.length + 1) (base + setbacks.length) final)
    (silent : (scenario.backend.executing (base + setbacks.length)).notices = []) :
    (scenario.policy.run (Retry.rehearsal (scenario.backend.outcomesFrom base))).run {} =
      (some final, { attempts := setbacks.length + 1, waits := setbacks.map Setback.delay }) := by
  rw [← List.length_map Setback.delay]
  apply Retry.Policy.run_rehearsal limited
  · intro number delay delay_at
    rw [List.getElem?_map, Option.map_eq_some_iff] at delay_at
    obtain ⟨setback, setback_at, rfl⟩ := delay_at
    obtain ⟨-, outcome_eq, delay_eq⟩ := forgiven number setback setback_at
    exact ⟨setback.failure, by simp [Backend.outcomesFrom, outcome_eq], delay_eq⟩
  · rw [List.length_map, Backend.outcomesFrom, settles.1, Option.getD_some]
  · intro failure final_eq
    rw [List.length_map]
    exact (settles.2 failure final_eq).2.resolve_left (fun noisy => noisy silent)

/-- An instance whose calls send no notices is retried as the policy retries any operation with the
same outcomes. -/
theorem Courses.rehearsed {front back : List Entry} {target : Instance} {outcome : Outcome}
    (limited : scenario.policy.maxRetries + 1 ≠ 0)
    (courses : Courses scenario outcome.result front target back)
    (trace_eq : outcome.trace = front ++ .event target.started :: back)
    (quiet : ∀ number < (executed (back.takeWhile fun entry => !entry.borders)).length,
      (scenario.backend.executing ((executed front).length + number)).notices = [] ∧
        (scenario.backend.executing ((executed front).length + number)).outcome? ≠
          some (.error .cancelled))
    (undisturbed : (∀ entry ∈ back, entry.borders = false) → outcome.Undisturbed) :
    ∃ since rest setbacks final,
      back = since ++ .event (target.verdict (BatchResult.ofCall [] final).classify) :: rest ∧
        Story scenario (front ++ .event target.started :: since) front target since setbacks
          (setbacks.length + 1) (target.closing final) ∧
        (scenario.policy.run (Retry.rehearsal
          (scenario.backend.outcomesFrom (executed front).length))).run {} =
            (some final,
              { attempts := setbacks.length + 1, waits := setbacks.map Setback.delay }) := by
  obtain ⟨since, rest, setbacks, submitted, told, rfl, story, concludes⟩ := courses
  have within : setbacks.length + submitted ≤
      (executed ((since ++ rest).takeWhile fun entry => !entry.borders)).length := by
    have inside : ∀ entry ∈ since, (!entry.borders) = true := fun entry member => by
      simp [story.inside entry member]
    rw [List.takeWhile_append_of_pos inside, executed_append, List.length_append, story.calls_eq]
    exact Nat.le_add_right _ _
  cases concludes with
  | @settled final rest settles =>
      obtain ⟨silent, -⟩ := quiet setbacks.length within
      rw [silent] at story ⊢
      exact ⟨since, rest, setbacks, final, rfl, story,
        settles.rehearsed limited story.forgiven silent⟩
  | refused outcome_eq => exact absurd outcome_eq (quiet setbacks.length within).2
  | abandoned | cancelled =>
      rw [List.append_nil] at undisturbed trace_eq
      rw [← trace_eq] at story
      have told : .event (.scriptCancelled target.batch.index) ∈ outcome.trace := by
        rw [story.trace_eq]
        exact List.mem_append_right _ (List.mem_cons_of_mem _ (story.mem_of_told (by simp)))
      exact absurd told ((undisturbed story.inside).uncancelled target.batch.index)
  | stalled _ _ stalls =>
      rw [List.append_nil] at undisturbed
      exact absurd stalls (undisturbed story.inside).returned
  | waiting stalls =>
      rw [List.append_nil] at undisturbed
      exact absurd stalls (undisturbed story.inside).returned
  | barred refused =>
      rw [List.append_nil] at undisturbed
      exact absurd refused ((undisturbed story.inside).acquired _)

end Engine
end SqlScript
