import SqlScript.Proofs.Engine.Obedience
import SqlScript.Proofs.Engine.RunEvents

/-!
# Runs obey requests and hear calls out

The instances of a script are run one after the other, and each of them keeps the trace sound.  The
trace of a whole run is sound for the result of the run: nothing begins after a request to cancel
it, and every batch that was submitted is heard out.
-/

namespace SqlScript
namespace Engine

open Trace

variable {scenario : Scenario} {audience : Audience} {state : RunState}

namespace Instance

open Run (Heeded)

variable {target : Instance}

/-- Whether the script goes on after an instance, the instance has been heard out. -/
def Carried (scenario : Scenario) (audience : Audience) : Verdict → RunState → Prop
  | .cancelled, state => Parts scenario audience state
  | .goOn, state | .halted, state => Sound scenario audience (.ok .running) state.trace.toList

theorem ensures_judge {result : BatchResult}
    (attends : Attends scenario.backend audience false state)
    (owed : Sound scenario audience (.ok .running)
      (state.trace.toList ++ [.event (target.verdict result.classify)])) :
    (target.judge result).Ensures state (Heeded scenario audience (Carried scenario audience)) := by
  have tell {state : RunState} {event : Event} {verdict : Verdict}
      (attends : Attends scenario.backend audience false state)
      (owed : Sound scenario audience (.ok .running) (state.trace.toList ++ [.event event]))
      (kept : verdict ≠ .cancelled) :
      Run.Ensures (do Run.emit event; return verdict) state
        (Heeded scenario audience (Carried scenario audience)) := by
    refine Run.ensures_heeded_bind (Run.ensures_tell event attends owed.obeys.front) ?_
    intro _ after attends speaks
    rw [← List.map_singleton (f := Entry.event), ← speaks.trace_eq] at owed
    cases verdict with
    | goOn | halted => exact Run.ensures_pure.mpr ⟨attends, owed⟩
    | cancelled => contradiction
  unfold judge
  refine Run.ensures_enter_bind.mpr (Run.ensures_bind.mpr (Run.ensures_modify.mpr ?_))
  have counted : Attends scenario.backend audience false
      { state with phase := .reporting, executed := state.executed + 1 } :=
    attends.of_eq rfl rfl rfl rfl rfl
  dsimp only
  split
  · rename_i unsuccessful
    have failed : result.classify.success = false := by simpa using unsuccessful
    refine Run.ensures_bind.mpr (Run.ensures_modify.mpr ?_)
    have counted : Attends scenario.backend audience false
        { state with
          phase := .reporting
          executed := state.executed + 1
          failed := state.failed + 1 } :=
      attends.of_eq rfl rfl rfl rfl rfl
    dsimp only
    split
    · rename_i halts
      rw [verdict_of_failed failed halts] at owed
      exact tell counted owed (by simp)
    · rename_i goes_on
      rw [verdict, if_pos (.inr (by simpa using goes_on))] at owed
      exact tell counted owed (by simp)
  · rename_i successful
    rw [verdict, if_pos (.inl (by simpa using successful))] at owed
    exact tell counted owed (by simp)

theorem ensures_attempts (known : target ∈ scenario.script.instances)
    (attends : Attends scenario.backend audience false state)
    (ready : Ready scenario audience target state) :
    Run.Ensures (do
      match ← target.settle scenario.policy scenario.backend {} {} with
      | none => return .cancelled
      | some result => target.judge result) state
      (Heeded scenario audience (Carried scenario audience)) := by
  refine Run.ensures_heeded_bind (ensures_settle known attends ready) ?_
  intro result after attends resolved
  cases result with
  | none => exact Run.ensures_pure.mpr ⟨attends, resolved⟩
  | some result => exact ensures_judge attends resolved

theorem ensures_run (known : target ∈ scenario.script.instances)
    (attends : Attends scenario.backend audience false state)
    (sound : Sound scenario audience (.ok .running) state.trace.toList) :
    (target.run scenario.policy scenario.backend).Ensures state
      (Heeded scenario audience (Carried scenario audience)) := by
  refine Run.ensures_look_bind.mpr ?_
  cases noticed : state.cancelled with
  | true =>
      have used_up := RunState.looked_of_cancelled noticed
      refine Run.ensures_heeded_bind (target.ensures_cancel attends.look used_up sound.obeys) ?_
      rintro _ after attends ⟨told, -⟩
      exact Run.ensures_pure.mpr ⟨attends, Parts.of_adds sound told⟩
  | false =>
      refine Run.ensures_enter_bind.mpr ?_
      have entered : Attends scenario.backend audience false
          { state with toAudience := state.looked, phase := .dispatching } :=
        attends.look.of_eq rfl rfl rfl rfl rfl
      refine Run.ensures_heeded_bind (Run.ensures_tell _ entered sound.obeys) ?_
      intro _ begun attends_begun speaks
      have begun_sound : Sound scenario audience (.ok .running) begun.trace.toList := by
        rw [speaks.trace_eq]
        exact sound.begin (attends.not_requested noticed) target
      have underway : ∃ before since, Underway begun.trace.toList before target since :=
        ⟨_, [], speaks.trace_eq, by simp⟩
      have attempts {greeted : RunState} {events : List Event}
          (attends : Attends scenario.backend audience false greeted)
          (adds : Utters scenario audience begun greeted events)
          (inside : ∀ event ∈ events, (Entry.event event).borders = false) :=
        ensures_attempts known attends ⟨adds.goOn begun_sound _, adds.underway inside underway⟩
      dsimp only
      split
      · refine Run.ensures_remarks_bind attends_begun begun_sound.obeys (fun _ => rfl)
          (fun _ => rfl) ?_
        exact fun greeted attends adds => attempts attends adds (by simp [Entry.borders])
      · exact attempts attends_begun (.refl _) (by simp)

end Instance

namespace Run

/-- The rest is run only if what comes first lets the script go on. -/
theorem ensures_goOn_bind {first rest : Run Verdict}
    (ensures_first : first.Ensures state (Heeded scenario audience
      (Instance.Carried scenario audience)))
    (ensures_rest : ∀ after, Attends scenario.backend audience false after →
      Sound scenario audience (.ok .running) after.trace.toList →
        rest.Ensures after (Heeded scenario audience (Instance.Carried scenario audience))) :
    Run.Ensures (do
      match ← first with
      | .goOn => rest
      | verdict => return verdict) state
      (Heeded scenario audience (Instance.Carried scenario audience)) := by
  refine ensures_heeded_bind ensures_first fun verdict after attends carried => ?_
  cases verdict with
  | goOn => exact ensures_rest after attends carried
  | halted | cancelled => exact ensures_pure.mpr ⟨attends, carried⟩

theorem ensures_repeats {batch : Batch} {remaining : Nat}
    (known : batch ∈ scenario.script.runnable) (enough : remaining ≤ batch.repeatCount)
    (attends : Attends scenario.backend audience false state)
    (sound : Sound scenario audience (.ok .running) state.trace.toList) :
    (runRepeats scenario.policy scenario.backend batch remaining).Ensures state
      (Heeded scenario audience (Instance.Carried scenario audience)) := by
  induction remaining generalizing state with
  | zero => exact ensures_pure.mpr ⟨attends, sound⟩
  | succ remaining induction =>
      have listed : { batch, repetition := batch.repeatCount - remaining } ∈
          scenario.script.instances := by
        refine List.mem_flatMap.mpr ⟨batch, known, List.mem_map.mpr ⟨_, ?_, rfl⟩⟩
        exact List.mem_range'_1.mpr (by omega)
      exact ensures_goOn_bind (Instance.ensures_run listed attends sound)
        fun after attends sound => induction (by omega) attends sound

theorem ensures_batches {batches : List Batch}
    (known : ∀ batch ∈ batches, batch ∈ scenario.script.runnable)
    (attends : Attends scenario.backend audience false state)
    (sound : Sound scenario audience (.ok .running) state.trace.toList) :
    (runBatches scenario.policy scenario.backend batches).Ensures state
      (Heeded scenario audience (Instance.Carried scenario audience)) := by
  induction batches generalizing state with
  | nil => exact ensures_pure.mpr ⟨attends, sound⟩
  | cons batch batches induction =>
      obtain ⟨first, others⟩ := List.forall_mem_cons.mp known
      exact ensures_goOn_bind (ensures_repeats first (Nat.le_refl _) attends sound)
        fun after attends sound => induction others attends sound

/-- A session that is closed at the end of a run may keep it from ending; where none is held, the
run ends. -/
theorem ensures_finish {phase kept : Phase}
    (attends : Attends scenario.backend audience false state)
    (sound : Sound scenario audience (.ok kept) state.trace.toList)
    (stops : state.session ≠ none →
      ∀ stop, Sound scenario audience (.error stop) state.trace.toList) :
    (finish scenario.backend phase).Ensures state
      (Heeded scenario audience fun summary (after : RunState) =>
        summary.phase = phase ∧ Sound scenario audience (.ok kept) after.trace.toList) := by
  have sum_up {middle : RunState} (attends : Attends scenario.backend audience false middle)
      (sound : Sound scenario audience (.ok kept) middle.trace.toList) :
      Run.Ensures (do
        enter phase
        let state ← get
        return ({ phase, executed := state.executed, failed := state.failed } : Summary)) middle
        (Heeded scenario audience fun summary (after : RunState) =>
          summary.phase = phase ∧ Sound scenario audience (.ok kept) after.trace.toList) := by
    have entered : Attends scenario.backend audience false { middle with phase } :=
      attends.of_eq rfl rfl rfl rfl rfl
    exact ensures_enter_bind.mpr (ensures_get_bind.mpr (ensures_pure.mpr ⟨entered, rfl, sound⟩))
  unfold finish
  cases held : state.session with
  | none =>
      -- There is nothing to wait for, so the run cannot stop here.
      have unheld : (Slot.close scenario.backend (return)).run.Ensures state
          fun result after => result = .ok (some ()) ∧ after = state := by
        refine Interruptible.ensures_get_bind.mpr ?_
        rw [held]
        exact ⟨rfl, rfl⟩
      refine ensures_bind.mpr (unheld.mono ?_)
      rintro _ _ ⟨rfl, rfl⟩
      exact sum_up attends sound
  | some session =>
      have stops := stops (by simp [held])
      refine ensures_bind.mpr ((Slot.tends_close Interruptible.turns_pure state attends).mono ?_)
      intro result middle tended
      cases result with
      | error stop => exact tended.adds.silent (stops stop)
      | ok _ => exact sum_up (tended.attends rfl) (tended.adds.silent sound)

theorem Heeded.sound {result : Except Stop Summary} {after : RunState}
    (heeded : Heeded scenario audience
      (fun summary after => Sound scenario audience (.ok summary.phase) after.trace.toList)
      result after) :
    Sound scenario audience (result.map Summary.phase) after.trace.toList := by
  cases result with
  | error stop => exact heeded
  | ok summary => exact heeded.2

theorem ensures_end {phase : Phase} (attends : Attends scenario.backend audience false state)
    (sound : Sound scenario audience (.ok phase) state.trace.toList)
    (stops : state.session ≠ none →
      ∀ stop, Sound scenario audience (.error stop) state.trace.toList) :
    (finish scenario.backend phase).Ensures state
      (Heeded scenario audience fun summary (after : RunState) =>
        Sound scenario audience (.ok summary.phase) after.trace.toList) := by
  refine (ensures_finish attends sound stops).mono fun result after heeded => heeded.mono ?_
  rintro summary ⟨rfl, sound⟩
  exact sound

/-- When all instances have been run, the messages behind them are told, and the run ends. -/
theorem ensures_complete (attends : Attends scenario.backend audience false state)
    (sound : Sound scenario audience (.ok .running) state.trace.toList) :
    Run.Ensures (do
      scenario.script.trailingMessages.forM fun text => emit (.message none text)
      let summary ← finish scenario.backend .completed
      emit (.scriptCompleted summary)
      return summary) state
      (Heeded scenario audience fun summary (after : RunState) =>
        Sound scenario audience (.ok summary.phase) after.trace.toList) := by
  refine ensures_remarks_bind attends sound.obeys (fun _ => rfl) (fun _ => rfl) ?_
  intro after attends adds
  refine ensures_heeded_bind (ensures_finish attends (adds.goOn sound (.ok .running))
    fun _ stop => adds.goOn sound _) ?_
  rintro summary closed attends ⟨-, sound⟩
  refine ensures_heeded_bind (ensures_tell _ attends sound.obeys) fun _ last attends speaks => ?_
  exact ensures_pure.mpr ⟨attends, (speaks.adds rfl nofun).goOn sound _⟩

theorem ensures_sound_script (attends : Attends scenario.backend audience false state)
    (sound : Sound scenario audience (.ok .running) state.trace.toList) :
    (runScript scenario.policy scenario.backend scenario.script).Ensures state fun result after =>
      Sound scenario audience (result.map Summary.phase) after.trace.toList := by
  have entered : Attends scenario.backend audience false { state with phase := .running } :=
    attends.of_eq rfl rfl rfl rfl rfl
  refine Run.Ensures.mono (ensures_enter_bind.mpr (ensures_heeded_bind
    (ensures_batches (fun _ => id) entered sound) ?_)) fun _ _ heeded => heeded.sound
  intro verdict after attends carried
  cases verdict with
  | goOn => exact ensures_complete attends carried
  | halted =>
      have anyhow := (Adds.refl after.trace.toList).goOn carried
      exact ensures_end attends (anyhow _) fun _ stop => anyhow _
  | cancelled => exact ensures_end attends carried.sound fun held stop => carried.stops held _

theorem ensures_sound_guarded {action : Run Summary}
    (ensures : action.Ensures state fun result after =>
      Sound scenario audience (result.map Summary.phase) after.trace.toList) :
    (guarded action).Ensures state fun result after =>
      Sound scenario audience (result.map Summary.phase) after.trace.toList := by
  refine ensures_tryCatch.mpr (ensures.mono fun result middle sound => ?_)
  cases result with
  | ok summary => exact sound
  | error stop =>
      cases stop with
      | stalled | uncounted => exact sound
      | failed failure =>
          refine ensures_bind.mpr ((ensures_discardSession scenario audience middle).mono ?_)
          rintro _ after ⟨rfl, adds, -⟩
          exact ensures_throw.mpr (adds.silent sound)

end Run

/-- Nothing begins after a request to cancel a run, and every batch that a run submits is heard
out. -/
theorem sound_of_run (policy : Retry.Policy) (backend : Backend) (script : Script)
    (audience : Audience) :
    let outcome := run policy backend script audience
    Sound { policy, backend, script } audience (outcome.result.map Summary.phase)
      outcome.trace :=
  Run.ensures_sound_guarded (Run.ensures_sound_script .start .start)

/-- A run that nobody asks to be cancelled does not say that it is. -/
theorem uncancelled_of_run {policy : Retry.Policy} {backend : Backend} {script : Script}
    {audience : Audience}
    (unasked : ¬Petitioned backend audience (run policy backend script audience).trace)
    (index : Nat) :
    .event (.scriptCancelled index) ∉ (run policy backend script audience).trace := by
  intro member
  obtain ⟨front, back, trace_eq⟩ := List.append_of_mem member
  have obeys := (sound_of_run policy backend script audience).obeys
  have petitioned := obeys.cancels front _ back trace_eq rfl
  rw [trace_eq] at unasked
  exact unasked (petitioned.append _)

/-- A run that stops has no result. -/
theorem eq_error_of_map_eq {α β : Type} {value : α → β} {result : Except Stop α} {stop : Stop}
    (stopped : result.map value = .error stop) : result = .error stop := by
  cases result with
  | ok => contradiction
  | error => exact congrArg Except.error (Except.error.inj stopped)

/-- A run with an open receiver hears out every batch that it submits. -/
theorem heard_of_run {policy : Retry.Policy} {backend : Backend} (script : Script)
    {audience : Audience} (received : audience.room = none) (keeps : backend.KeepsReceiver)
    {front back : List Entry} {session : Nat} {text : String}
    (trace_eq : (run policy backend script audience).trace =
      front ++ .call (.execute session text) :: back) :
    Heard { policy, backend, script } audience
      ((run policy backend script audience).result.map Summary.phase) front text back := by
  have kept := (stream_of_run policy script received keeps).not_receiverGone
  have sound := sound_of_run policy backend script audience
  exact sound.hears (fun gone => kept (eq_error_of_map_eq gone)) _ _ _ trace_eq session text rfl

end Engine
end SqlScript
