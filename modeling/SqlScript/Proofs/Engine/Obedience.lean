import SqlScript.Proofs.Engine.Sequels

/-!
# Instances obey requests and hear calls out

Every action keeps the trace sound: nothing begins after a request to cancel the run, and each batch
that was submitted is heard out.  An instance that is settled owes its verdict, and a run that is
cancelled during a call holds no session that could keep it from ending.
-/

namespace SqlScript
namespace Engine

open Trace

variable {scenario : Scenario} {audience : Audience}

/-- From `state` on the run has told `events`, and nothing has begun. -/
def Utters (scenario : Scenario) (audience : Audience) (state after : RunState)
    (events : List Event) : Prop :=
  Adds scenario.backend audience state.trace.toList after.trace.toList events

theorem Speaks.adds {state after : RunState} {event : Event} (speaks : Speaks state after [event])
    (begins : (Entry.event event).begins = false)
    (petitioned : (Entry.event event).cancels = true →
      Petitioned scenario.backend audience state.trace.toList) :
    Utters scenario audience state after [event] := by
  rw [Utters, speaks.trace_eq]
  exact .event (.singleton begins petitioned)

theorem Tended.adds {α : Type} {state after : RunState} {result : Except Stop (Option α)}
    (tended : Tended scenario.backend audience state result after) :
    Utters scenario audience state after [] := by
  obtain ⟨calls, calls_eq, others⟩ := tended.calls
  rw [Utters, calls_eq]
  exact .calls others _

namespace Run

variable {α β : Type} {state : RunState} {post : α → RunState → Prop}

/-- The state minds all requests and `post` holds of it, unless the run stops. -/
def Heeded (scenario : Scenario) (audience : Audience) (post : α → RunState → Prop) :
    Except Stop α → RunState → Prop
  | .ok value, after => Attends scenario.backend audience false after ∧ post value after
  | .error stop, after => Sound scenario audience (.error stop) after.trace.toList

theorem Heeded.mono {post' : α → RunState → Prop} {result : Except Stop α} {after : RunState}
    (heeded : Heeded scenario audience post result after)
    (weaker : ∀ value, post value after → post' value after) :
    Heeded scenario audience post' result after := by
  cases result with
  | error stop => exact heeded
  | ok value => exact ⟨heeded.1, weaker value heeded.2⟩

theorem ensures_heeded_bind {action : Run α} {next : α → Run β} {post' : β → RunState → Prop}
    (first : action.Ensures state (Heeded scenario audience post))
    (rest : ∀ value middle, Attends scenario.backend audience false middle → post value middle →
      (next value).Ensures middle (Heeded scenario audience post')) :
    (action >>= next).Ensures state (Heeded scenario audience post') := by
  refine ensures_bind.mpr (first.mono fun result middle heeded => ?_)
  cases result with
  | error stop => exact heeded
  | ok value => exact rest value middle heeded.1 heeded.2

theorem ensures_tell (event : Event) (attends : Attends scenario.backend audience false state)
    (obeys : Obeys scenario.backend audience state.trace.toList) :
    (emit event).Ensures state (Heeded scenario audience fun _ after =>
      Speaks state after [event]) := by
  refine (ensures_emit event state).mono ?_
  rintro (stop | _) after holds
  · obtain ⟨rfl, rfl⟩ := holds
    exact .of_obeys obeys
  · exact ⟨holds.1.attends attends holds.2, holds.1⟩

theorem ensures_remarks_bind {texts : List String} {event : String → Event} {next : Run α}
    (attends : Attends scenario.backend audience false state)
    (obeys : Obeys scenario.backend audience state.trace.toList)
    (begins : ∀ text, (Entry.event (event text)).begins = false)
    (goes_on : ∀ text, (Entry.event (event text)).cancels = false)
    (rest : ∀ after : RunState, Attends scenario.backend audience false after →
      Utters scenario audience state after (texts.map event) →
        next.Ensures after (Heeded scenario audience post)) :
    (do texts.forM fun text => emit (event text); next).Ensures state
      (Heeded scenario audience post) := by
  induction texts generalizing state with
  | nil => exact rest state attends (.refl _)
  | cons text texts induction =>
      rw [List.forM, bind_assoc]
      refine ensures_heeded_bind (ensures_tell _ attends obeys) fun _ middle attends speaks => ?_
      have told : Utters scenario audience state middle [event text] :=
        speaks.adds (begins text) (by simp [goes_on])
      exact induction attends (told.obeys obeys) fun after attends adds =>
        rest after attends (told.trans adds)

variable (scenario audience) in
/-- Letting the session go leaves nothing of it but the call. -/
theorem ensures_discardSession (state : RunState) :
    discardSession.Ensures state fun result after =>
      result = .ok () ∧ Utters scenario audience state after [] ∧
        after.session = none ∧ after.phase = state.phase ∧
          (Attends scenario.backend audience false state →
            Attends scenario.backend audience false after) := by
  refine ensures_get_bind.mpr ?_
  split
  · rename_i unheld
    exact ensures_pure.mpr ⟨rfl, .refl _, unheld, rfl, id⟩
  · rename_i session held
    refine ⟨rfl, ?_, rfl, rfl, fun attends => attends.discard session.number⟩
    exact ⟨[.call (.discard session.number)], Array.toList_push,
      .of_calm (by simp [Entry.begins, Entry.cancels]), rfl⟩

theorem ensures_discard_bind {next : Run α} {ensured : Except Stop α → RunState → Prop}
    (attends : Attends scenario.backend audience false state)
    (rest : ∀ after : RunState, Attends scenario.backend audience false after →
      Utters scenario audience state after [] → after.session = none →
        after.phase = state.phase → next.Ensures after ensured) :
    (do discardSession; next).Ensures state ensured := by
  refine ensures_bind.mpr ((ensures_discardSession scenario audience state).mono ?_)
  rintro _ after ⟨rfl, adds, unheld, phase_eq, attends_of⟩
  exact rest after (attends_of attends) adds unheld phase_eq

end Run

/-- The run has been cancelled.  If it holds a session that is still to be closed, no call that ran
a batch was interrupted. -/
structure Parts (scenario : Scenario) (audience : Audience) (state : RunState) : Prop where
  sound : Sound scenario audience (.ok .cancelled) state.trace.toList
  stops : state.session ≠ none →
    ∀ result, Sound scenario audience result state.trace.toList

/-- Where no call was interrupted, the run can be cancelled at any time. -/
theorem Parts.of_adds {state after : RunState} {events : List Event}
    (sound : Sound scenario audience (.ok .running) state.trace.toList)
    (adds : Utters scenario audience state after events) :
    Parts scenario audience after where
  sound := adds.goOn sound _
  stops _ := adds.goOn sound

namespace Instance

open Run (Heeded)

variable {α : Type} {target : Instance} {state : RunState}

theorem ensures_cancel (target : Instance)
    (attends : Attends scenario.backend audience false state)
    (used_up : state.patience = some 0)
    (obeys : Obeys scenario.backend audience state.trace.toList) :
    target.cancel.Ensures state (Heeded scenario audience fun _ (after : RunState) =>
      Utters scenario audience state after [.scriptCancelled target.batch.index] ∧
        (state.phase = .awaiting → after.session = none)) := by
  have petitioned := attends.petitioned used_up
  have leave (middle : RunState) (attends : Attends scenario.backend audience false middle)
      (adds : Utters scenario audience state middle [])
      (unheld : state.phase = .awaiting → middle.session = none) :
      Run.Ensures (do
        Run.enter .cancelled
        Run.emit (.scriptCancelled target.batch.index)) middle
          (Heeded scenario audience fun _ (after : RunState) =>
            Utters scenario audience state after [.scriptCancelled target.batch.index] ∧
              (state.phase = .awaiting → after.session = none)) := by
    refine Run.ensures_enter_bind.mpr ?_
    have entered : Attends scenario.backend audience false { middle with phase := .cancelled } :=
      attends.of_eq rfl rfl rfl rfl rfl
    refine (Run.ensures_tell _ entered (adds.obeys obeys)).mono fun _ after heeded => ?_
    refine heeded.mono fun _ speaks =>
      ⟨adds.trans (speaks.adds rfl fun _ => ?_), fun awaiting => ?_⟩
    · exact adds.petitioned petitioned
    exact speaks.session_eq.trans (unheld awaiting)
  refine Run.ensures_get_bind.mpr ?_
  split
  · refine Run.ensures_discard_bind attends fun middle attends adds unheld _ => ?_
    exact leave middle attends adds fun _ => unheld
  · rename_i elsewhere
    exact leave state attends (.refl _) fun awaiting => absurd awaiting elsewhere

/-- A run that stops because of the backend says so. -/
theorem ensures_failInternal {post : α → RunState → Prop} {message : String}
    (attends : Attends scenario.backend audience false state)
    (obeys : Obeys scenario.backend audience state.trace.toList)
    (stops : ∀ after : RunState,
      let failure := RunError.internal message target.batch.index target.batch.span state.phase
      Utters scenario audience state after
          [.scriptHalted target.batch.index failure.message] →
        Sound scenario audience (.error (.failed failure)) after.trace.toList) :
    (target.failInternal message : Run α).Ensures state (Heeded scenario audience post) := by
  refine Run.ensures_get_bind.mpr ?_
  refine Run.ensures_discard_bind attends fun middle attends adds _ _ => ?_
  refine Run.ensures_enter_bind.mpr ?_
  have entered : Attends scenario.backend audience false { middle with phase := .halted } :=
    attends.of_eq rfl rfl rfl rfl rfl
  refine Run.ensures_heeded_bind (Run.ensures_tell _ entered (adds.obeys obeys)) ?_
  intro _ after _ speaks
  exact Run.ensures_throw.mpr (stops after (adds.trans (speaks.adds rfl nofun)))

/-- The error that ended a call is told and kept in the result. -/
theorem ensures_report (target : Instance) (result : BatchResult) (failure : SessionError)
    (attends : Attends scenario.backend audience false state)
    (obeys : Obeys scenario.backend audience state.trace.toList) :
    (target.report result failure).Ensures state
      (Heeded scenario audience fun value (after : RunState) =>
        value = result.recordFailure failure ∧
          Utters scenario audience state after [target.failureEvent failure]) := by
  have told {event : Event} {value : BatchResult} (begins : (Entry.event event).begins = false)
      (goes_on : (Entry.event event).cancels = false) :
      Run.Ensures (do Run.emit event; return value) state
        (Heeded scenario audience fun value' (after : RunState) =>
          value' = value ∧ Utters scenario audience state after [event]) := by
    refine Run.ensures_heeded_bind (Run.ensures_tell event attends obeys) ?_
    intro _ after attends speaks
    exact Run.ensures_pure.mpr ⟨attends, rfl, speaks.adds begins (by simp [goes_on])⟩
  cases failure <;> exact told rfl rfl

/-- The instance is being run, and all its calls have been heard out. -/
structure Ready (scenario : Scenario) (audience : Audience) (target : Instance)
    (state : RunState) : Prop where
  sound : Sound scenario audience (.ok .running) state.trace.toList
  underway : ∃ before since, Underway state.trace.toList before target since

/-- Once its verdict is told, the instance that was settled has been heard out. -/
def Resolved (scenario : Scenario) (audience : Audience) (target : Instance) :
    Option BatchResult → RunState → Prop
  | none, state => Parts scenario audience state
  | some result, state => Sound scenario audience (.ok .running)
      (state.trace.toList ++ [.event (target.verdict result.classify)])

theorem ensures_leave (target : Instance)
    (attends : Attends scenario.backend audience false state) (used_up : state.patience = some 0)
    (obeys : Obeys scenario.backend audience state.trace.toList)
    (parts : ∀ after : RunState,
      Utters scenario audience state after [.scriptCancelled target.batch.index] →
        (state.phase = .awaiting → after.session = none) → Parts scenario audience after) :
    Run.Ensures (do target.cancel; return none) state
      (Heeded scenario audience (Resolved scenario audience target)) := by
  refine Run.ensures_heeded_bind (target.ensures_cancel attends used_up obeys) ?_
  rintro _ after attends ⟨adds, unheld⟩
  exact Run.ensures_pure.mpr ⟨attends, parts after adds unheld⟩

theorem trails_verdict (target : Instance) (result : BatchResult) {backend : Backend}
    {trace : List Entry} : Trails backend audience trace [.event (target.verdict result)] := by
  unfold verdict
  split <;> exact .singleton rfl nofun

/-- A batch whose call returned owes only its verdict once the end of the call was told. -/
theorem resolved_of_adds {front : List Entry} {patience : Option Nat}
    {final : Except SessionError (Option Nat)} {after : RunState}
    (awaited : Awaited scenario audience target front patience state.trace.toList)
    (ends : (scenario.backend.executing (executed front).length).ending patience = .returned final)
    (not_cancelled : final ≠ .error .cancelled)
    (adds : Utters scenario audience state after (target.closing final)) :
    Resolved scenario audience target
      (some (.ofCall (scenario.backend.executing (executed front).length).notices final))
      after := by
  refine (adds.trans (.event (target.trails_verdict _))).sound awaited ?_
  rw [ends]
  exact .settled not_cancelled (List.prefix_refl _)

/-- An error that ends a call is reported, or the batch is submitted again. -/
theorem ensures_failed {policy : Retry.Policy} {number : UInt32} {failure : SessionError}
    {front : List Entry} {patience : Option Nat} {middle : RunState}
    {again : Retry.Delay → Run (Option BatchResult)}
    (awaited : Awaited scenario audience target front patience state.trace.toList)
    (ends : (scenario.backend.executing (executed front).length).ending patience =
      .returned (.error failure))
    (not_cancelled : failure ≠ .cancelled)
    (adds : Utters scenario audience state middle [])
    (attends : Attends scenario.backend audience false middle)
    (ensures_again : ∀ delay after,
      (scenario.backend.executing (executed front).length).notices = [] →
      Attends scenario.backend audience false after → Ready scenario audience target after →
        (again delay).Ensures after
          (Heeded scenario audience (Resolved scenario audience target))) :
    Run.Ensures (do
      let result := (scenario.backend.executing (executed front).length).notices.foldl
        BatchResult.record {}
      if !(scenario.backend.executing (executed front).length).notices.isEmpty then
        return some (← target.report result failure)
      match policy.afterFailure number failure with
      | .giveUp _ => return some (← target.report result failure)
      | .retry delay =>
          Run.emit (.message (some target.batch.index) (retryMessage delay failure))
          again delay) middle
      (Heeded scenario audience (Resolved scenario audience target)) := by
  have obeys : Obeys scenario.backend audience middle.trace.toList := adds.obeys awaited.obeys
  have reported : Run.Ensures (do
      let result ← target.report
        ((scenario.backend.executing (executed front).length).notices.foldl BatchResult.record {})
        failure
      return some result) middle
      (Heeded scenario audience (Resolved scenario audience target)) := by
    refine Run.ensures_heeded_bind (target.ensures_report _ failure attends obeys) ?_
    rintro _ after attends ⟨rfl, told⟩
    have resolved := resolved_of_adds awaited ends (by simpa using not_cancelled) (adds.trans told)
    exact Run.ensures_pure.mpr ⟨attends, resolved⟩
  dsimp only
  split
  · exact reported
  · rename_i quiet
    have no_notices : (scenario.backend.executing (executed front).length).notices = [] := by
      simpa using quiet
    cases policy.afterFailure number failure with
    | giveUp exhausted => exact reported
    | retry delay =>
        refine Run.ensures_heeded_bind (Run.ensures_tell _ attends obeys) ?_
        intro _ after attends speaks
        have announced := adds.trans (speaks.adds rfl nofun)
        refine ensures_again delay after no_notices attends ⟨?_, ?_⟩
        · refine announced.sound awaited ?_
          rw [ends]
          exact .retried not_cancelled no_notices
            (List.prefix_refl [target.announcement { delay, failure }])
        · exact announced.underway (by simp [Entry.borders]) awaited.still_underway

/-- A session that a failure broke is let go. -/
theorem ensures_discardBroken {next : Run α} {failure : SessionError}
    {ensured : Except Stop α → RunState → Prop}
    (attends : Attends scenario.backend audience false state)
    (rest : ∀ after : RunState, Attends scenario.backend audience false after →
      Utters scenario audience state after [] → next.Ensures after ensured) :
    Run.Ensures (do
      if failure.breaksConnection then
        Run.discardSession
      next) state ensured := by
  split
  · exact Run.ensures_discard_bind attends fun after attends adds _ _ => rest after attends adds
  · exact rest state attends (.refl _)

/-- When the wait for a call has ended, the instance is settled, submitted again or given up. -/
theorem ensures_answered {policy : Retry.Policy} {number : UInt32} {front : List Entry}
    {patience : Option Nat} {submission : Submission}
    {again : SessionError → Run (Option BatchResult)}
    (awaited : Awaited scenario audience target front patience state.trace.toList)
    (attends : Attends scenario.backend audience false state) (awaiting : state.phase = .awaiting)
    (noticed : submission.outcome = none → state.patience = some 0)
    (answers : ((scenario.backend.executing (executed front).length).ending patience).Answers
      ((scenario.backend.executing (executed front).length).heard patience) submission)
    (ensures_again : ∀ failure after, submission.result = {} →
      Attends scenario.backend audience false after → Ready scenario audience target after →
        (again failure).Ensures after
          (Heeded scenario audience (Resolved scenario audience target))) :
    Run.Ensures (do
      match submission.outcome with
      | none =>
          target.cancel
          return none
      | some (.ok rows) => return some { submission.result with rows }
      | some (.error .cancelled) =>
          target.failInternal "backend cancelled a batch without a cancel request"
      | some (.error failure) =>
          if failure.breaksConnection then
            Run.discardSession
          if submission.noticed then
            return some (← target.report submission.result failure)
          match policy.afterFailure number failure with
          | .giveUp _ => return some (← target.report submission.result failure)
          | .retry delay =>
              Run.emit (.message (some target.batch.index) (retryMessage delay failure))
              again failure) state
      (Heeded scenario audience (Resolved scenario audience target)) := by
  cases ends : (scenario.backend.executing (executed front).length).ending patience with
  | stalled =>
      rw [ends] at answers
      exact answers.elim
  | interrupted =>
      rw [ends] at answers
      dsimp only
      rw [show submission.outcome = none from answers]
      refine ensures_leave target attends (noticed answers) awaited.obeys ?_
      intro final told unheld
      refine ⟨told.sound awaited ?_, fun held => absurd (unheld awaiting) held⟩
      rw [ends]
      exact .interrupted rfl
  | returned final =>
      rw [ends, (Behavior.of_returned ends).2] at answers
      obtain rfl := answers
      cases final with
      | ok rows =>
          have resolved := resolved_of_adds awaited ends (by simp) (.refl state.trace.toList)
          exact Run.ensures_pure.mpr ⟨attends, resolved⟩
      | error failure =>
          dsimp only
          split
          · contradiction
          · rename_i same
            cases same
          · rename_i same
            obtain rfl : failure = .cancelled := by simpa using same
            refine ensures_failInternal attends awaited.obeys fun final told => ?_
            rw [awaiting] at told ⊢
            refine told.sound awaited ?_
            rw [ends]
            exact .refused rfl
          · rename_i not_cancelled same
            obtain rfl := Except.error.inj (Option.some.inj same)
            refine ensures_discardBroken attends fun middle attends adds => ?_
            refine ensures_failed awaited ends not_cancelled adds attends ?_
            intro delay after no_notices attends ready
            exact ensures_again failure after (by rw [no_notices]; rfl) attends ready

/-- A batch is submitted and its call is heard out. -/
theorem ensures_attempt {session : Session} {next : Submission → Run (Option BatchResult)}
    (known : target ∈ scenario.script.instances)
    (attends : Attends scenario.backend audience false state) (awaiting : state.phase = .awaiting)
    (ready : Ready scenario audience target state)
    (ensures_unsubmitted : ∀ submission after, submission.outcome = none →
      after.patience = some 0 →
      Attends scenario.backend audience false after → Ready scenario audience target after →
        (next submission).Ensures after
          (Heeded scenario audience (Resolved scenario audience target)))
    (ensures_next : ∀ submission after patience,
      Awaited scenario audience target state.trace.toList patience after.trace.toList →
      Attends scenario.backend audience false after → after.phase = .awaiting →
      (submission.outcome = none → after.patience = some 0) →
      ((scenario.backend.executing (executed state.trace.toList).length).ending patience).Answers
        ((scenario.backend.executing (executed state.trace.toList).length).heard patience)
        submission →
        (next submission).Ensures after
          (Heeded scenario audience (Resolved scenario audience target))) :
    Run.Ensures (do next (← target.submit scenario.backend session {})) state
      (Heeded scenario audience (Resolved scenario audience target)) := by
  refine Run.ensures_bind.mpr ((target.ensures_submit attends).mono ?_)
  rintro result after (⟨submission, rfl, unsubmitted, rfl, used_up⟩ |
    ⟨unasked, patience, submitted, leaves, trace_eq, phase_eq, -, hears⟩)
  · exact ensures_unsubmitted submission _ unsubmitted used_up attends.look
      ⟨ready.sound, ready.underway⟩
  have heard_out {told : List Notice} (speaks : Speaks submitted after (told.map target.eventOf))
      (told_eq : told = (scenario.backend.executing (executed state.trace.toList).length).heard
        patience) : Awaited scenario audience target state.trace.toList patience
          after.trace.toList :=
    { sound := ready.sound
      unasked
      known
      underway := ready.underway
      leaves
      trace_eq := ⟨session.number, by rw [speaks.trace_eq, trace_eq, told_eq]; rfl⟩ }
  cases result with
  | error stop =>
      rcases hears with ⟨rfl, told, speaks⟩ | ⟨rfl, ends, speaks⟩
      · refine .of_obeys ?_
        rw [speaks.trace_eq, trace_eq]
        exact (ready.sound.obeys.concat unasked rfl).append (target.trails_told told)
      · refine (Adds.refl _).sound (heard_out speaks rfl) ?_
        rw [ends]
        exact .stalled rfl
  | ok submission =>
      obtain ⟨attends, speaks, answers, noticed⟩ := hears
      exact ensures_next submission after patience (heard_out speaks rfl) attends
        (speaks.phase_eq.trans (phase_eq.trans awaiting)) noticed answers

theorem ensures_settle {tracker : Retry.Tracker} (known : target ∈ scenario.script.instances)
    (attends : Attends scenario.backend audience false state)
    (ready : Ready scenario audience target state) :
    (target.settle scenario.policy scenario.backend tracker {}).Ensures state
      (Heeded scenario audience (Resolved scenario audience target)) := by
  -- Each attempt leaves fewer; what holds before the next one is that all calls were heard out.
  induction remaining_eq : tracker.remaining using Nat.strongRecOn generalizing tracker state with
  | ind remaining induction =>
      unfold settle
      refine Run.ensures_enter_bind.mpr (Run.ensures_bind.mpr ?_)
      have entered : Attends scenario.backend audience false { state with phase := .dispatching } :=
        attends.of_eq rfl rfl rfl rfl rfl
      refine (Slot.tends_acquire _ _ entered).mono fun result middle tended => ?_
      have adds : Utters scenario audience state middle [] := tended.adds
      have sound : Sound scenario audience (.ok .running) middle.trace.toList :=
        adds.goOn ready.sound _
      rcases result with stop | result
      · exact adds.goOn ready.sound _
      have attends := tended.attends rfl
      rcases result with _ | failure | _
      · exact ensures_leave target attends (tended.noticed rfl) sound.obeys fun after told _ =>
          .of_adds sound told
      · refine Run.ensures_enter_bind.mpr ?_
        have entered : Attends scenario.backend audience false { middle with phase := .halted } :=
          attends.of_eq rfl rfl rfl rfl rfl
        refine Run.ensures_heeded_bind (Run.ensures_tell _ entered sound.obeys) ?_
        intro _ after _ speaks
        exact Run.ensures_throw.mpr ((speaks.adds rfl nofun).goOn sound _)
      · dsimp only
        split
        · exact Run.ensures_throw.mpr (adds.goOn ready.sound _)
        · rename_i started start_eq
          refine Run.ensures_enter_bind.mpr (Run.ensures_get_bind.mpr ?_)
          have entered : Attends scenario.backend audience false
              { middle with phase := .awaiting } := attends.of_eq rfl rfl rfl rfl rfl
          split
          · exact ensures_failInternal entered sound.obeys fun after told =>
              told.goOn sound _
          · rename_i session held
            have ready : Ready scenario audience target { middle with phase := .awaiting } :=
              ⟨sound, adds.underway (by simp) ready.underway⟩
            refine ensures_attempt known entered rfl ready ?_ ?_
            · intro submission after unsubmitted used_up attends ready
              rw [unsubmitted]
              exact ensures_leave target attends used_up ready.sound.obeys fun final told _ =>
                .of_adds ready.sound told
            · intro submission after patience awaited attends awaiting noticed answers
              refine ensures_answered awaited attends awaiting noticed answers ?_
              intro failure after nothing_kept attends ready
              rw [nothing_kept]
              refine Run.ensures_look_bind.mpr ?_
              cases noticed : after.cancelled with
              | true =>
                  have used_up := RunState.looked_of_cancelled noticed
                  exact ensures_leave target attends.look used_up ready.sound.obeys
                    fun final told _ => .of_adds ready.sound told
              | false =>
                  have shorter := Retry.Tracker.remaining_of_start? start_eq
                  exact induction _ (remaining_eq ▸ shorter) attends.look
                    ⟨ready.sound, ready.underway⟩ rfl

end Instance

end Engine
end SqlScript
