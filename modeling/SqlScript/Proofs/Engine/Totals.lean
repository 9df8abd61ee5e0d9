import SqlScript.Proofs.Engine.Actions
import SqlScript.Proofs.Engine.RunEvents

/-!
# The totals of a run

A batch is counted where its result is judged, and its result is announced there too unless the
batch halts the script.  Nothing else changes the counts or announces a result, so the totals of a
run can be read off its events.
-/

namespace SqlScript

/-- The instances of a script are as many as it says. -/
theorem Script.length_instances (script : Script) :
    script.instances.length = script.instanceCount := by
  unfold instances instanceCount
  induction script.runnable with
  | nil => rfl
  | cons batch batches ih => simp [Batch.instances, ih]

namespace Engine

/-- The results that have been announced. -/
def RunState.completions (state : RunState) : List BatchResult :=
  state.events.filterMap Event.completion?

/-- How many batches are counted whose result is not announced. -/
def Verdict.halts : Verdict → Nat
  | goOn | cancelled => 0
  | halted => 1

namespace Run

variable {α β : Type}

/-- If the action, begun in `state`, returns a value, `post` holds of it and of the state behind
it. -/
def Delivers (action : Run α) (state : RunState) (post : α → RunState → Prop) : Prop :=
  action.Ensures state fun result after => ∀ value, result = .ok value → post value after

theorem Delivers.mono {action : Run α} {state : RunState} {post post' : α → RunState → Prop}
    (delivers : action.Delivers state post)
    (weaker : ∀ value after, post value after → post' value after) :
    action.Delivers state post' :=
  Ensures.mono delivers fun _ after holds value returned =>
    weaker value after (holds value returned)

theorem delivers_pure {value : α} {state : RunState} {post : α → RunState → Prop}
    (holds : post value state) : (pure value : Run α).Delivers state post :=
  ensures_pure.mpr fun _ same => Except.ok.inj same ▸ holds

theorem delivers_bind {action : Run α} {next : α → Run β} {state : RunState}
    {post : β → RunState → Prop}
    (first : action.Delivers state fun value middle => (next value).Delivers middle post) :
    (action >>= next).Delivers state post := by
  refine ensures_bind.mpr (Ensures.mono first fun result middle holds => ?_)
  cases result with
  | error stop => exact fun value absurd => nomatch absurd
  | ok value => exact holds value rfl

/-- The action counts no batch and announces no result. -/
def Steady (action : Run α) : Prop :=
  ∀ state, action.Ensures state fun _ after =>
    after.executed = state.executed ∧ after.failed = state.failed ∧
      after.completions = state.completions

theorem steady_get_bind {next : RunState → Run α} (rest : ∀ state, Steady (next state)) :
    Steady (get >>= next) := fun state => ensures_get_bind.mpr (rest state state)

theorem steady_bind {action : Run α} {next : α → Run β} (first : Steady action)
    (rest : ∀ value, Steady (next value)) : Steady (action >>= next) := by
  intro state
  refine ensures_bind.mpr ((first state).mono fun result middle holds => ?_)
  obtain ⟨executed_eq, failed_eq, completions_eq⟩ := holds
  cases result with
  | error stop => exact ⟨executed_eq, failed_eq, completions_eq⟩
  | ok value =>
      refine (rest value middle).mono fun _ after holds => ?_
      exact ⟨holds.1.trans executed_eq, holds.2.1.trans failed_eq, holds.2.2.trans completions_eq⟩

theorem steady_modify {change : RunState → RunState} (bookkeeping : Bookkeeping change) :
    Steady (modify change) := fun state =>
  ensures_modify.mpr ⟨bookkeeping.executed_eq state, bookkeeping.failed_eq state, by
    rw [RunState.completions, RunState.events, bookkeeping.trace_eq]; rfl⟩

theorem steady_record (call : Call) : Steady (record call) := fun state =>
  ensures_modify.mpr ⟨rfl, rfl, congrArg (List.filterMap Event.completion?)
    (events_push_call state.trace call)⟩

/-- An event is sent, unless nobody receives it. -/
theorem ensures_sent (event : Event) (state : RunState) :
    (emit event).Ensures state fun result after =>
      result = .error (.failed .receiverGone) ∧ after = state ∨
        result = .ok () ∧ after = { state with
          toAudience := state.received, trace := state.trace.push (.event event) } := by
  refine ensures_get_bind.mpr ?_
  split
  · exact .inl ⟨rfl, rfl⟩
  · exact .inr ⟨rfl, rfl⟩

theorem completions_push_event (state : RunState) (event : Event) :
    RunState.completions { state with
      toAudience := state.received, trace := state.trace.push (.event event) } =
        state.completions ++ event.completion?.toList := by
  cases completes : event.completion? <;>
    simp [RunState.completions, RunState.events, Entry.event?, completes]

theorem steady_emit {event : Event} (no_result : event.completion? = none) :
    Steady (emit event) := by
  intro state
  refine (ensures_sent event state).mono ?_
  rintro _ _ (⟨-, rfl⟩ | ⟨-, rfl⟩)
  · exact ⟨rfl, rfl, rfl⟩
  · refine ⟨rfl, rfl, ?_⟩
    rw [completions_push_event, no_result, Option.toList_none, List.append_nil]

theorem Steady.delivers {action : Run α} (steady : Steady action) (state : RunState) :
    action.Delivers state fun _ after => after.executed = state.executed ∧
      after.failed = state.failed ∧ after.completions = state.completions :=
  (steady state).mono fun _ _ same _ _ => same

theorem pervasive_steady : Pervasive @Steady where
  pure _ _ := ensures_pure.mpr ⟨rfl, rfl, rfl⟩
  throw _ _ := ensures_throw.mpr ⟨rfl, rfl, rfl⟩
  bind := steady_bind
  read _ rest := steady_get_bind rest
  update := steady_modify
  dropReceiver _ := ensures_modify.mpr ⟨rfl, rfl, rfl⟩
  record := steady_record
  emit := steady_emit
  look _ := ⟨rfl, rfl, rfl⟩

end Run

open Run (Steady pervasive_steady)

/-- From `state` on `results` were announced and counted, and `halts` more batches were counted as
failed. -/
structure Counts (state after : RunState) (results : List BatchResult) (halts : Nat) : Prop where
  completions_eq : after.completions = state.completions ++ results
  executed_eq : after.executed = state.executed + (results.length + halts)
  failed_eq : after.failed = state.failed + (results.countP (!·.success) + halts)

/-- The action counts the batches whose results it announces and the one that halts the script. -/
def Tallies (action : Run Verdict) : Prop :=
  ∀ state, action.Delivers state fun verdict after =>
    ∃ results, Counts state after results verdict.halts

theorem counts_nil {state after : RunState}
    (steady : after.executed = state.executed ∧ after.failed = state.failed ∧
      after.completions = state.completions) : Counts state after [] 0 where
  completions_eq := by rw [steady.2.2, List.append_nil]
  executed_eq := steady.1
  failed_eq := steady.2.1

theorem Counts.trans {state middle after : RunState} {results results' : List BatchResult}
    {halts : Nat} (front : Counts state middle results 0)
    (back : Counts middle after results' halts) :
    Counts state after (results ++ results') halts where
  completions_eq := by rw [back.completions_eq, front.completions_eq, List.append_assoc]
  executed_eq := by
    rw [back.executed_eq, front.executed_eq, List.length_append]
    omega
  failed_eq := by
    rw [back.failed_eq, front.failed_eq, List.countP_append]
    omega

theorem tallies_pure {verdict : Verdict} (announced : verdict.halts = 0) :
    Tallies (return verdict) := fun state =>
  Run.delivers_pure ⟨[], by rw [announced]; exact counts_nil ⟨rfl, rfl, rfl⟩⟩

theorem tallies_steady_bind {α : Type} {action : Run α} {next : α → Run Verdict}
    (steady : Steady action) (rest : ∀ value, Tallies (next value)) :
    Tallies (action >>= next) := by
  intro state
  refine Run.delivers_bind ((steady.delivers state).mono fun value middle same => ?_)
  refine (rest value middle).mono fun verdict after ⟨results, counts⟩ => ?_
  exact ⟨[] ++ results, (counts_nil same).trans counts⟩

theorem tallies_goOn_bind {first rest : Run Verdict} (tallies_first : Tallies first)
    (tallies_rest : Tallies rest) :
    Tallies (do
      match ← first with
      | .goOn => rest
      | verdict => return verdict) := by
  intro state
  refine Run.delivers_bind ((tallies_first state).mono fun verdict middle holds => ?_)
  obtain ⟨results, counts⟩ := holds
  cases verdict with
  | goOn =>
      refine (tallies_rest middle).mono fun verdict after ⟨results', counts'⟩ => ?_
      exact ⟨results ++ results', counts.trans counts'⟩
  | halted | cancelled => exact Run.delivers_pure ⟨results, counts⟩

/-- Where an event is the last of an action, it decides what is counted. -/
theorem tallies_emit_pure {state middle : RunState} {event : Event} {verdict : Verdict}
    (results : List BatchResult) (counts : Counts state { middle with
      toAudience := middle.received, trace := middle.trace.push (.event event) } results
        verdict.halts) :
    Run.Delivers (do Run.emit event; return verdict) middle fun verdict after =>
      ∃ results, Counts state after results verdict.halts := by
  refine Run.delivers_bind ((Run.ensures_sent event middle).mono ?_)
  rintro _ _ (⟨rfl, rfl⟩ | ⟨rfl, rfl⟩)
  · exact fun value absurd => nomatch absurd
  · exact fun value _ => Run.delivers_pure ⟨results, counts⟩

namespace Instance

/-- A batch that is judged is counted, and its result is announced unless it halts the script. -/
theorem tallies_judge (target : Instance) (result : BatchResult) :
    Tallies (target.judge result) := by
  intro state
  refine Run.ensures_bind.mpr (Run.ensures_modify.mpr (Run.ensures_bind.mpr ?_))
  refine Run.ensures_modify.mpr ?_
  dsimp only
  split
  · rename_i unsuccessful
    refine Run.ensures_bind.mpr (Run.ensures_modify.mpr ?_)
    dsimp only
    split
    · refine tallies_emit_pure [] ⟨?_, rfl, rfl⟩
      rw [Run.completions_push_event]
      rfl
    · refine tallies_emit_pure [result.classify] ⟨?_, rfl, ?_⟩
      · rw [Run.completions_push_event]
        rfl
      · rw [List.countP_singleton, if_pos unsuccessful]
        rfl
  · rename_i successful
    refine tallies_emit_pure [result.classify] ⟨?_, rfl, ?_⟩
    · rw [Run.completions_push_event]
      rfl
    · rw [List.countP_singleton, if_neg successful]
      rfl

theorem tallies_attempts (policy : Retry.Policy) (backend : Backend) (target : Instance) :
    Tallies (do
      match ← target.settle policy backend {} {} with
      | none => return .cancelled
      | some result => target.judge result) := by
  refine tallies_steady_bind (pervasive_settle target pervasive_steady policy backend _ _)
    fun result => ?_
  cases result with
  | none => exact tallies_pure rfl
  | some result => exact tallies_judge target result

theorem tallies_run (policy : Retry.Policy) (backend : Backend) (target : Instance) :
    Tallies (target.run policy backend) := by
  have settled := tallies_attempts policy backend target
  refine tallies_steady_bind pervasive_steady.look fun cancelled => ?_
  split
  · exact tallies_steady_bind (pervasive_cancel target pervasive_steady) fun _ => tallies_pure rfl
  · refine tallies_steady_bind (pervasive_steady.enter _) fun _ => ?_
    refine tallies_steady_bind (pervasive_steady.emit rfl) fun _ => ?_
    dsimp only
    split
    · exact tallies_steady_bind (pervasive_steady.forM (fun _ => rfl) _) fun _ => settled
    · exact settled

end Instance

theorem tallies_repeats (policy : Retry.Policy) (backend : Backend) (batch : Batch)
    (remaining : Nat) : Tallies (runRepeats policy backend batch remaining) := by
  induction remaining with
  | zero => exact tallies_pure rfl
  | succ remaining ih => exact tallies_goOn_bind (Instance.tallies_run policy backend _) ih

theorem tallies_batches (policy : Retry.Policy) (backend : Backend) (batches : List Batch) :
    Tallies (runBatches policy backend batches) := by
  induction batches with
  | nil => exact tallies_pure rfl
  | cons batch batches ih => exact tallies_goOn_bind (tallies_repeats policy backend _ _) ih

/-- One if the script was halted, by a batch that was counted but whose result was not announced. -/
def Summary.halts (summary : Summary) : Nat :=
  if summary.phase = .halted then 1 else 0

/-- From `state` on `results` were announced, and the summary counts them. -/
structure Summary.Sums (summary : Summary) (state after : RunState) (results : List BatchResult) :
    Prop where
  completions_eq : after.completions = state.completions ++ results
  executed_eq : summary.executed = state.executed + (results.length + summary.halts)
  failed_eq : summary.failed = state.failed + (results.countP (!·.success) + summary.halts)

/-- The summary of a run has the phase in which it ends and the counts so far. -/
theorem delivers_summary (backend : Backend) (phase : Phase) (state : RunState) :
    (finish backend phase).Delivers state fun summary after =>
      summary = { phase, executed := state.executed, failed := state.failed } ∧
        after.completions = state.completions := by
  have closed := Slot.tacit_close pervasive_steady.toTacit backend (pervasive_steady.pure (some ()))
  refine Run.delivers_bind ((closed.delivers state).mono fun _ middle same => ?_)
  obtain ⟨executed_eq, failed_eq, completions_eq⟩ := same
  refine Run.delivers_bind (((pervasive_steady.enter phase).delivers middle).mono ?_)
  rintro _ entered ⟨executed_eq', failed_eq', completions_eq'⟩
  refine Run.ensures_get_bind.mpr (Run.delivers_pure ⟨?_, completions_eq'.trans completions_eq⟩)
  rw [executed_eq', executed_eq, failed_eq', failed_eq]

theorem Counts.sums {state middle after : RunState} {results : List BatchResult} {halts : Nat}
    {summary : Summary} {phase : Phase} (counts : Counts state middle results halts)
    (summary_eq : summary = { phase, executed := middle.executed, failed := middle.failed })
    (completions_eq : after.completions = middle.completions) (halts_eq : summary.halts = halts) :
    summary.Sums state after results where
  completions_eq := completions_eq.trans counts.completions_eq
  executed_eq := by rw [halts_eq, ← counts.executed_eq, summary_eq]
  failed_eq := by rw [halts_eq, ← counts.failed_eq, summary_eq]

/-- Behind the last batch nothing is counted any more. -/
theorem delivers_sums_completed (backend : Backend) (script : Script) {state middle : RunState}
    {results : List BatchResult} (counts : Counts state middle results 0) :
    Run.Delivers (do
      script.trailingMessages.forM fun text => Run.emit (.message none text)
      let summary ← finish backend .completed
      Run.emit (.scriptCompleted summary)
      return summary) middle fun summary after => ∃ results, summary.Sums state after results := by
  have trailing : Steady (script.trailingMessages.forM fun text => Run.emit (.message none text)) :=
    pervasive_steady.forM (fun _ => rfl) _
  have announced (summary : Summary) : Steady (Run.emit (.scriptCompleted summary)) :=
    pervasive_steady.emit rfl
  refine Run.delivers_bind ((trailing.delivers middle).mono fun _ told same => ?_)
  refine Run.delivers_bind ((delivers_summary backend .completed told).mono ?_)
  rintro summary closed ⟨summary_eq, completions_eq⟩
  refine Run.delivers_bind (((announced summary).delivers closed).mono fun _ after same' => ?_)
  exact Run.delivers_pure ⟨_, (counts.trans (counts_nil same)).sums summary_eq
    (same'.2.2.trans completions_eq) (by rw [summary_eq]; rfl)⟩

/-- The summary of a script counts the results that were announced and the batch that halted it. -/
theorem delivers_sums (policy : Retry.Policy) (backend : Backend) (script : Script)
    (state : RunState) :
    (runScript policy backend script).Delivers state fun summary after =>
      ∃ results, summary.Sums state after results := by
  have running : Steady (Run.enter .running) := pervasive_steady.enter _
  refine Run.delivers_bind ((running.delivers state).mono fun _ begun same => ?_)
  refine Run.delivers_bind ((tallies_batches policy backend script.runnable begun).mono ?_)
  rintro verdict middle ⟨results, counts_begun⟩
  have counts : Counts state middle ([] ++ results) verdict.halts :=
    (counts_nil same).trans counts_begun
  cases verdict with
  | halted | cancelled =>
      refine (delivers_summary backend _ middle).mono fun summary after holds => ?_
      obtain ⟨summary_eq, completions_eq⟩ := holds
      exact ⟨_, counts.sums summary_eq completions_eq (by rw [summary_eq]; rfl)⟩
  | goOn => exact delivers_sums_completed backend script counts

/-- The summary of a run counts the results of its events. -/
theorem sums_of_run (policy : Retry.Policy) (backend : Backend) (script : Script)
    (audience : Audience) {summary : Summary}
    (returned : (run policy backend script audience).result = .ok summary) :
    let completions := (run policy backend script audience).events.filterMap Event.completion?
    summary.executed = completions.length + summary.halts ∧
      summary.failed = completions.countP (!·.success) + summary.halts := by
  have sums : (guarded (runScript policy backend script)).Delivers { toAudience := audience }
      fun summary after => ∃ results, summary.Sums { toAudience := audience } after results := by
    refine Run.ensures_tryCatch.mpr
      (Run.Ensures.mono (delivers_sums policy backend script _) fun result middle holds => ?_)
    cases result with
    | ok summary => exact holds
    | error stop =>
        refine (ensures_parting stop middle).mono ?_
        rintro _ after ⟨rfl, -⟩
        exact fun summary absurd => nomatch absurd
  obtain ⟨results, completions_eq, executed_eq, failed_eq⟩ := sums summary returned
  have completions_eq :
      (run policy backend script audience).events.filterMap Event.completion? = results :=
    completions_eq
  rw [completions_eq]
  exact ⟨executed_eq.trans (Nat.zero_add _), failed_eq.trans (Nat.zero_add _)⟩

namespace Instance

variable {target : Instance} {events : List Event}

theorem completion?_of_mem_opening (target : Instance) :
    ∀ event ∈ target.opening, event.completion? = none := by
  unfold opening
  split <;> simp [Event.completion?]

theorem Concerns.completion?_eq_none {event : Event} (concerns : target.Concerns event) :
    event.completion? = none := by
  cases event <;> first | rfl | exact concerns.elim

theorem completions_of_concerns {inner : List Event}
    (concerns : ∀ event ∈ inner, target.Concerns event) :
    (target.opening ++ inner).filterMap Event.completion? = [] := by
  refine List.filterMap_eq_nil_iff.mpr (List.forall_mem_append.mpr ⟨?_, ?_⟩)
  · exact completion?_of_mem_opening target
  · exact fun event member => (concerns event member).completion?_eq_none

/-- A block announces one result. -/
theorem Block.length_completions (block : target.Block events) :
    (events.filterMap Event.completion?).length = 1 := by
  obtain ⟨result, concerns⟩ := block
  rw [← List.append_assoc, List.filterMap_append, completions_of_concerns concerns]
  rfl

theorem Begun.completions_eq_nil (begun : target.Begun events) :
    events.filterMap Event.completion? = [] := by
  obtain ⟨concerns⟩ := begun
  exact completions_of_concerns concerns

end Instance

/-- Blocks announce as many results as there are instances. -/
theorem Blocks.length_completions {targets : List Instance} {events : List Event}
    (blocks : Blocks targets events) :
    (events.filterMap Event.completion?).length = targets.length := by
  induction blocks with
  | nil => rfl
  | cons block _ ih =>
      rw [List.filterMap_append, List.length_append, block.length_completions, ih,
        List.length_cons, Nat.add_comm]

/-- The instances that were completed and the one behind them that was not can be told from how many
results are announced. -/
theorem CutOff.split {last : Instance} {targets : List Instance} {events : List Event}
    (cut : CutOff last targets events) :
    ∃ front back, events = front ++ back ∧ (back = [] ∨ last.Begun back) ∧
      Blocks (targets.take (events.filterMap Event.completion?).length) front ∧
        targets[(events.filterMap Event.completion?).length]? = some last := by
  induction cut with
  | unbegun => exact ⟨[], [], rfl, .inl rfl, .nil, rfl⟩
  | begun begun =>
      refine ⟨[], _, rfl, .inr begun, ?_⟩
      rw [begun.completions_eq_nil]
      exact ⟨.nil, rfl⟩
  | @later target targets block events is_block _ ih =>
      obtain ⟨front, back, rfl, begins, blocks, last_eq⟩ := ih
      refine ⟨block ++ front, back, (List.append_assoc _ _ _).symm, begins, ?_⟩
      rw [List.filterMap_append, List.length_append, is_block.length_completions, Nat.add_comm]
      exact ⟨.cons is_block blocks, last_eq⟩

section

variable {policy : Retry.Policy} {backend : Backend} {script : Script} {summary : Summary}
  {events : List Event}

/-- A script that is completed announces a result for every instance. -/
theorem Stream.length_completions (stream : Stream policy backend script (.ok summary) events)
    (completed : summary.phase = .completed) :
    (events.filterMap Event.completion?).length = script.instanceCount := by
  cases stream with
  | completed _ blocks =>
      have trailing : (script.trailingMessages.map fun text => Event.message none text).filterMap
          Event.completion? = [] := by
        simp [Event.completion?]
      rw [List.filterMap_append, List.filterMap_append, trailing, List.length_append,
        blocks.length_completions, script.length_instances]
      rfl
  | cancelled phase_eq | halted phase_eq => simp [completed] at phase_eq

/-- A completed script announces one summary, which is the one that is returned. -/
theorem Stream.mem_scriptCompleted_iff
    (stream : Stream policy backend script (.ok summary) events)
    (completed : summary.phase = .completed) (announced : Summary) :
    .scriptCompleted announced ∈ events ↔ announced = summary := by
  obtain ⟨front, last, rfl, front_open, announces⟩ :=
    stream.announced fun _ absurd => nomatch absurd
  rw [mem_iff_of_isTerminal front_open rfl]
  cases announces with
  | completed => simp
  | cancelled phase_eq | halted phase_eq => simp [completed] at phase_eq

/-- A script that is cancelled in an instance has announced a result for each instance before it. -/
theorem Stream.split_of_cancelled (stream : Stream policy backend script (.ok summary) events)
    (cancelled : summary.phase = .cancelled) :
    ∃ last front back, events = front ++ (back ++ [.scriptCancelled last.batch.index]) ∧
      (back = [] ∨ last.Begun back) ∧
        Blocks (script.instances.take (events.filterMap Event.completion?).length) front ∧
          script.instances[(events.filterMap Event.completion?).length]? = some last := by
  cases stream with
  | @cancelled summary last events _ cut =>
      obtain ⟨front, back, events_eq, begins, blocks, last_eq⟩ := cut.split
      have completions_eq :
          (events ++ [Event.scriptCancelled last.batch.index]).filterMap Event.completion? =
            events.filterMap Event.completion? := by
        simp [Event.completion?]
      refine ⟨last, front, back, ?_, begins, ?_⟩
      · rw [events_eq, List.append_assoc]
      · rw [completions_eq]
        exact ⟨blocks, last_eq⟩
  | completed phase_eq | halted phase_eq => simp [cancelled] at phase_eq

end

/-- A summary counts the results that are announced, and a batch that halts the script as well.  If
the script is completed these are the results of all its instances, and the summary itself is
announced; if it is cancelled in an instance, these are the results of the instances before it. -/
theorem totals_of_run (policy : Retry.Policy) {backend : Backend} (script : Script)
    {audience : Audience} {summary : Summary} (received : audience.room = none)
    (keeps : backend.KeepsReceiver)
    (returned : (run policy backend script audience).result = .ok summary) :
    let events := (run policy backend script audience).events
    let completions := events.filterMap Event.completion?
    summary.executed = completions.length + summary.halts ∧
      summary.failed = completions.countP (!·.success) + summary.halts ∧
      (summary.phase = .completed → summary.executed = script.instanceCount ∧
        ∀ announced, .scriptCompleted announced ∈ events ↔ announced = summary) ∧
      (summary.phase = .cancelled → ∃ last front back,
        events = front ++ (back ++ [.scriptCancelled last.batch.index]) ∧
          (back = [] ∨ last.Begun back) ∧
            Blocks (script.instances.take summary.executed) front ∧
              script.instances[summary.executed]? = some last) := by
  intro events completions
  have stream := stream_of_run policy script received keeps
  rw [returned] at stream
  obtain ⟨executed_eq, failed_eq⟩ := sums_of_run policy backend script audience returned
  refine ⟨executed_eq, failed_eq, fun completed => ?_, fun cancelled => ?_⟩
  · have executed_eq : summary.executed = completions.length := by
      rw [executed_eq, Summary.halts, completed]
      rfl
    rw [executed_eq]
    exact ⟨stream.length_completions completed, stream.mem_scriptCompleted_iff completed⟩
  · have executed_eq : summary.executed = completions.length := by
      rw [executed_eq, Summary.halts, cancelled]
      rfl
    rw [executed_eq]
    exact stream.split_of_cancelled cancelled

theorem totals_of_cancelled_run :
    let failure : ServerError := { number := 208, severity := 16, message := "no such object" }
    let backend := Backend.ofLists []
      [.finish (.error (.server failure)), .cancel (.yield (.finish (.ok none)))] []
    let batch : Batch :=
      { (default : Batch) with text := "a", repeatCount := 3, errorAction := .ignore }
    let script : Script := { batches := #[batch], trailingMessages := [], outputTargets := {} }
    let outcome := run .usual backend script {}
    let summary : Summary := { phase := .cancelled, executed := 1, failed := 1 }
    (({} : Audience).room = none ∧ backend.KeepsReceiver ∧ outcome.result = .ok summary) ∧
      (outcome.events.filterMap Event.completion?).length = 1 ∧
        (outcome.events.filterMap Event.completion?).countP (!·.success) = 1 ∧
          ∃ front back, outcome.events = front ++ (back ++ [.scriptCancelled batch.index]) ∧
            Blocks [{ batch, repetition := 1 }] front := by
  intro failure backend batch script outcome summary
  have received : ({} : Audience).room = none := rfl
  have keeps : backend.KeepsReceiver := by
    refine ⟨fun _ => trivial, fun call => ?_, fun _ => trivial⟩
    rcases call with _ | _ | call <;> exact trivial
  have returns : outcome.result.toOption = some summary := by decide +kernel
  have returned : outcome.result = .ok summary := by
    generalize outcome.result = result at returns
    cases result with
    | error stop => cases returns
    | ok value => rw [Option.some.inj returns]
  obtain ⟨executed_eq, failed_eq, -, cut⟩ := totals_of_run .usual script received keeps returned
  have not_halted : summary.halts = 0 := rfl
  rw [not_halted, Nat.add_zero] at executed_eq failed_eq
  obtain ⟨last, front, back, events_eq, -, blocks, last_eq⟩ := cut rfl
  have instances_eq : script.instances = [1, 2, 3].map fun repetition => { batch, repetition } := by
    decide +kernel
  rw [instances_eq] at blocks last_eq
  obtain rfl : { batch, repetition := 2 } = last := Option.some.inj last_eq
  exact ⟨⟨received, keeps, returned⟩, executed_eq.symm, failed_eq.symm, front, back, events_eq,
    blocks⟩

end Engine
end SqlScript
