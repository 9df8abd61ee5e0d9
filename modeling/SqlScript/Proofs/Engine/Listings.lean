import SqlScript.Proofs.Build.Listings
import SqlScript.Proofs.Engine.Echoes
import SqlScript.Proofs.Engine.Stages

/-!
# Messages of a script in its runs

To see that each message is told once, a run is held against the run of the same script without its
messages.  The engine looks at a message only when it tells it, so that both runs do the same
otherwise.
-/

namespace SqlScript

/-- The batch without its messages. -/
def Batch.silent (batch : Batch) : Batch :=
  { batch with preamble := [] }

/-- The script without its messages. -/
def Script.silent (script : Script) : Script :=
  { script with batches := script.batches.map Batch.silent, trailingMessages := [] }

theorem Script.runnable_silent (script : Script) :
    script.silent.runnable = script.runnable.map Batch.silent := by
  unfold runnable silent
  rw [Array.toList_map, List.filter_map]
  rfl

namespace Engine

open Run (Steadfast pervasive_steadfast tacit_mute)

namespace Instance

/-- The instance without messages of the script. -/
def silent (target : Instance) : Instance :=
  { target with batch := target.batch.silent }

variable (target : Instance)

theorem await_silent (behavior : Behavior) (result : BatchResult) (noticed : Bool)
    (queue : List Notice) :
    target.silent.await behavior result noticed queue =
      target.await behavior result noticed queue := by
  induction behavior generalizing result noticed queue with
  | finish outcome => rfl
  | stall => rfl
  | yield next ih =>
      unfold await
      simp only [ih]
      rfl
  | notify notice next ih => exact ih _ _ _
  | cancel next ih =>
      unfold await
      simp only [ih]
  | dropReceiver next ih =>
      unfold await
      simp only [ih]

theorem submit_silent (backend : Backend) (session : Session) (result : BatchResult) :
    target.silent.submit backend session result = target.submit backend session result := by
  unfold submit
  simp only [await_silent]
  rfl

theorem settle_silent (policy : Retry.Policy) (backend : Backend) (tracker : Retry.Tracker)
    (result : BatchResult) :
    target.silent.settle policy backend tracker result =
      target.settle policy backend tracker result := by
  induction remaining_eq : tracker.remaining using Nat.strongRecOn
    generalizing tracker result with
  | ind remaining ih =>
      -- Only the attempts that follow are not the same actions by definition.
      unfold settle
      refine bind_congr fun _ => bind_congr fun acquired => ?_
      split
      · rfl
      · rfl
      · split
        · rfl
        · rename_i started start_eq
          refine bind_congr fun _ => bind_congr fun state => ?_
          split
          · rfl
          · rw [submit_silent]
            refine bind_congr fun submission => ?_
            split
            · rfl
            · rfl
            · rfl
            · rename_i failure _ _
              have shorter := Retry.Tracker.remaining_of_start? start_eq
              have again : target.silent.settle policy backend (started.fail failure)
                  submission.result =
                    target.settle policy backend (started.fail failure) submission.result :=
                ih _ (remaining_eq ▸ shorter) _ _ rfl
              rw [again]
              rfl

theorem steadfast_judge (result : BatchResult) : Steadfast (target.judge result) := by
  have completed : Steadfast (do
      Run.emit (.batchCompleted target.batch.index target.repetition result.classify)
      return Verdict.goOn) :=
    Run.steadfast_bind (Run.steadfast_emit _) fun _ => pervasive_steadfast.pure _
  refine Run.steadfast_bind (pervasive_steadfast.enter _) fun _ => ?_
  refine Run.steadfast_bind (Run.mute_modify {}).steadfast fun _ => ?_
  split
  · refine Run.steadfast_bind (Run.mute_modify {}).steadfast fun _ => ?_
    split
    · exact Run.steadfast_bind (Run.steadfast_emit _) fun _ => pervasive_steadfast.pure _
    · exact completed
  · exact completed

/-- The events of an instance that was completed, with the messages of the script and without. -/
def Greets (events echoes : List Event) : Prop :=
  ∃ inner, echoes = target.started :: inner ∧
    events = target.started ::
      (target.greetings.map (.message (some target.batch.index)) ++ inner)

theorem echoed_attempts (policy : Retry.Policy) (backend : Backend) :
    Run.Echoed (do
        match ← target.settle policy backend {} {} with
        | none => return .cancelled
        | some result => target.judge result)
      (do
        match ← target.silent.settle policy backend {} {} with
        | none => return .cancelled
        | some result => target.silent.judge result) fun _ events echoes => events = echoes := by
  rw [settle_silent]
  refine Run.steadfast_bind (pervasive_settle target pervasive_steadfast policy backend _ _)
    fun result => ?_
  cases result with
  | none => exact pervasive_steadfast.pure _
  | some result => exact steadfast_judge target result

/-- Without the messages of the script an instance is run in the same way. -/
theorem echoed_run (policy : Retry.Policy) (backend : Backend) :
    (target.run policy backend).Echoed (target.silent.run policy backend)
      fun verdict events echoes => verdict = .goOn → target.Greets events echoes := by
  have settled := echoed_attempts target policy backend
  refine Run.echoed_mute_bind tacit_mute.look fun cancelled => ?_
  split
  · refine Run.echoed_bind (pervasive_cancel target pervasive_steadfast) fun _ _ _ _ => ?_
    exact Run.echoed_pure (by simp)
  · refine Run.echoed_mute_bind (tacit_mute.enter _) fun _ => Run.echoed_emit_bind ?_
    dsimp only
    by_cases first_time : target.repetition = 1
    · have first_time' : target.silent.repetition = 1 := first_time
      rw [if_pos first_time, if_pos first_time']
      refine Run.echoed_forM_bind (settled.mono ?_)
      rintro verdict inner _ rfl -
      exact ⟨inner, rfl, by rw [greetings, if_pos first_time]; rfl⟩
    · have repeated : target.silent.repetition ≠ 1 := first_time
      rw [if_neg first_time, if_neg repeated]
      refine settled.mono ?_
      rintro verdict inner _ rfl -
      exact ⟨inner, rfl, by rw [greetings, if_neg first_time]; rfl⟩

end Instance

/-- The events of instances all of which were completed, with the messages of the script and
without. -/
inductive Greeted : List Instance → List Event → List Event → Prop
  | nil : Greeted [] [] []
  | cons {target : Instance} {targets : List Instance}
      {events events' echoes echoes' : List Event} :
      target.Greets events echoes → Greeted targets events' echoes' →
        Greeted (target :: targets) (events ++ events') (echoes ++ echoes')

theorem Instance.Greets.greeted {target : Instance} {events echoes : List Event}
    (greets : target.Greets events echoes) : Greeted [target] events echoes := by
  have greeted := Greeted.cons greets .nil
  rwa [List.append_nil, List.append_nil] at greeted

theorem Greeted.append {targets targets' : List Instance}
    {events events' echoes echoes' : List Event} (front : Greeted targets events echoes)
    (back : Greeted targets' events' echoes') :
    Greeted (targets ++ targets') (events ++ events') (echoes ++ echoes') := by
  induction front with
  | nil => exact back
  | cons greets _ ih =>
      rw [List.cons_append, List.append_assoc, List.append_assoc]
      exact .cons greets ih

theorem echoed_goOn_bind {targets targets' : List Instance} {first echo rest echo' : Run Verdict}
    (echoed_first : first.Echoed echo
      fun verdict events echoes => verdict = .goOn → Greeted targets events echoes)
    (echoed_rest : rest.Echoed echo'
      fun verdict events echoes => verdict = .goOn → Greeted targets' events echoes) :
    Run.Echoed (do
        match ← first with
        | .goOn => rest
        | verdict => return verdict)
      (do
        match ← echo with
        | .goOn => echo'
        | verdict => return verdict)
      fun verdict events echoes =>
        verdict = .goOn → Greeted (targets ++ targets') events echoes := by
  refine Run.echoed_bind echoed_first fun verdict front fronts greeted => ?_
  cases verdict with
  | goOn =>
      refine echoed_rest.mono fun verdict back backs greeted_behind goes_on => ?_
      exact (greeted rfl).append (greeted_behind goes_on)
  | halted | cancelled => exact Run.echoed_pure (by simp)

theorem echoed_repeats (policy : Retry.Policy) (backend : Backend) (batch : Batch)
    {remaining : Nat} (enough : remaining ≤ batch.repeatCount) :
    (runRepeats policy backend batch remaining).Echoed
      (runRepeats policy backend batch.silent remaining) fun verdict events echoes =>
        verdict = .goOn → Greeted ((List.range' (batch.repeatCount - remaining + 1) remaining).map
          fun repetition => { batch, repetition }) events echoes := by
  induction remaining with
  | zero => exact Run.echoed_pure fun _ => .nil
  | succ remaining ih =>
      have next_eq : batch.repeatCount - (remaining + 1) + 1 = batch.repeatCount - remaining := by
        omega
      rw [List.range'_succ, next_eq]
      have first := Instance.echoed_run
        { batch, repetition := batch.repeatCount - remaining } policy backend
      exact echoed_goOn_bind (first.mono fun _ _ _ greets goes_on => (greets goes_on).greeted)
        (ih (by omega))

theorem echoed_batches (policy : Retry.Policy) (backend : Backend) (batches : List Batch) :
    (runBatches policy backend batches).Echoed
      (runBatches policy backend (batches.map Batch.silent)) fun verdict events echoes =>
        verdict = .goOn → Greeted (batches.flatMap Batch.instances) events echoes := by
  induction batches with
  | nil => exact Run.echoed_pure fun _ => .nil
  | cons batch batches ih =>
      rw [List.flatMap_cons]
      have repeats := echoed_repeats policy backend batch (Nat.le_refl batch.repeatCount)
      rw [Nat.sub_self] at repeats
      exact echoed_goOn_bind repeats ih

/-- The events of a script that was completed, with its messages and without. -/
def Tells (script : Script) (summary : Summary) (events echoes : List Event) : Prop :=
  ∃ front fronts, Greeted script.instances front fronts ∧
    events = front ++ (script.trailingMessages.map (.message none) ++ [.scriptCompleted summary]) ∧
      echoes = fronts ++ [.scriptCompleted summary]

theorem echoed_finish (backend : Backend) (phase : Phase) :
    (finish backend phase).Echoed (finish backend phase) fun summary events echoes =>
      summary.phase = phase ∧ events = [] ∧ echoes = [] := by
  have closes := Slot.tacit_close tacit_mute backend (tacit_mute.pure (some ()))
  refine Run.echoed_mute_bind closes fun _ => ?_
  refine Run.echoed_mute_bind (tacit_mute.enter phase) fun _ => ?_
  exact Run.echoed_get_bind (fun _ _ _ => rfl) fun state => Run.echoed_pure ⟨rfl, rfl, rfl⟩

/-- Without its messages a script is run in the same way. -/
theorem echoed_script (policy : Retry.Policy) (backend : Backend) (script : Script) :
    (runScript policy backend script).Echoed (runScript policy backend script.silent)
      fun summary events echoes =>
        summary.phase = .completed → Tells script summary events echoes := by
  refine Run.echoed_mute_bind (tacit_mute.enter _) fun _ => ?_
  rw [Script.runnable_silent]
  refine Run.echoed_bind (echoed_batches policy backend _) fun verdict front fronts greeted => ?_
  cases verdict with
  | halted | cancelled =>
      refine (echoed_finish backend _).mono ?_
      rintro summary _ _ ⟨phase_eq, -⟩ completed
      rw [phase_eq] at completed
      contradiction
  | goOn =>
      refine Run.echoed_forM_bind ?_
      refine Run.echoed_bind (echoed_finish backend _) ?_
      rintro summary _ _ ⟨-, rfl, rfl⟩
      refine Run.echoed_emit_bind (Run.echoed_pure fun _ => ?_)
      exact ⟨front, fronts, greeted rfl, rfl, rfl⟩

theorem echoed_guarded {α : Type} {action echo : Run α}
    {told : α → List Event → List Event → Prop} (echoed : action.Echoed echo told) :
    (guarded action).Echoed (guarded echo) told := by
  intro state other echoes
  have ends := echoed state other echoes
  refine Run.ensures_tryCatch.mpr (Run.Ensures.mono ends fun result middle holds => ?_)
  cases result with
  | ok value =>
      rintro _ ⟨⟩
      refine Run.ensures_tryCatch.mpr ((holds value rfl).mono ?_)
      rintro _ after ⟨rfl, behind⟩
      exact ⟨rfl, behind⟩
  | error stop =>
      refine (ensures_parting stop middle).mono ?_
      rintro _ after ⟨rfl, -⟩ value absurd
      contradiction

/-- A run that is completed tells the messages of its script where they belong, and for the rest
the events of the run without them. -/
theorem tells_of_run {policy : Retry.Policy} {backend : Backend} {script : Script}
    {audience : Audience} {summary : Summary}
    (result_eq : (run policy backend script audience).result = .ok summary)
    (completed : summary.phase = .completed) :
    Tells script summary (run policy backend script audience).events
      (run policy backend script.silent audience).events := by
  have echoes : RunState.Echoes { toAudience := audience } { toAudience := audience } :=
    ⟨rfl, fun left left_eq => ⟨left, left_eq, Nat.le_refl left⟩⟩
  obtain ⟨-, -, events, others, events_eq, others_eq, tells⟩ :=
    echoed_guarded (echoed_script policy backend script) _ _ echoes summary result_eq
  have events_eq' : (run policy backend script audience).events = events := events_eq
  have others_eq' : (run policy backend script.silent audience).events = others := others_eq
  rw [events_eq', others_eq']
  exact tells completed

/-- The messages of a batch come with one of its instances, the first. -/
theorem greetings_of_batch {batch : Batch} (repeated : 0 < batch.repeatCount) :
    batch.instances.flatMap Instance.greetings = batch.preamble := by
  obtain ⟨more, count_eq⟩ := Nat.exists_eq_add_one.mpr repeated
  have no_more : ((List.range' 2 more).map fun repetition =>
      ({ batch, repetition } : Instance)).flatMap Instance.greetings = [] := by
    refine List.flatMap_eq_nil_iff.mpr fun target member => ?_
    obtain ⟨repetition, in_range, rfl⟩ := List.mem_map.mp member
    have later := (List.mem_range'_1.mp in_range).1
    exact if_neg (by dsimp only; omega)
  rw [Batch.instances, count_eq, List.range'_succ, List.map_cons, List.flatMap_cons, no_more,
    List.append_nil]
  exact if_pos rfl

/-- The messages of a script that come with its instances are those of its batches. -/
theorem greetings_of_delivered {deeds : List Deed} {script : Script}
    (delivered : Deed.Delivered deeds script.batches.toList script.trailingMessages) :
    script.instances.flatMap Instance.greetings = script.batches.toList.flatMap Batch.preamble := by
  obtain ⟨-, -, none_blank, -, repeated⟩ := delivered
  unfold Script.instances Script.runnable
  generalize script.batches.toList = batches at none_blank repeated ⊢
  induction batches with
  | nil => rfl
  | cons batch batches ih =>
      obtain ⟨none_here, none_behind⟩ := List.forall_mem_cons.mp none_blank
      obtain ⟨repeated_here, repeated_behind⟩ := List.forall_mem_cons.mp repeated
      rw [List.flatMap_cons, ← ih none_behind repeated_behind]
      cases blank : batch.isBlank with
      | true =>
          rw [List.filter_cons_of_neg (by simp [blank]), none_here blank]
          rfl
      | false =>
          rw [List.filter_cons_of_pos (by simp [blank]), List.flatMap_cons, List.flatMap_append,
            greetings_of_batch repeated_here]

/-- What the commands of a script record is carried, in order, by its batches and its trailing
messages, each message by the first batch that is closed behind it and is not blank.  A run that is
completed tells the messages of each batch once, where the batch begins for the first time, then
the trailing messages before its last event, and beyond that what it tells of the script without
messages. -/
theorem listings_of_build {resolver : Resolver} {options : BuildOptions} {bindings : Variable.Table}
    {text : String} {script : Script}
    (built : build resolver options bindings text = .ok script) :
    ∃ tokens flat flow last, tokenize .script text = .ok tokens ∧
      Expands resolver bindings tokens flat flow last ∧
      Deed.Delivered (Deed.ofTokens bindings [] flat) script.batches.toList
        script.trailingMessages ∧
      (Deed.ofTokens bindings [] flat).filterMap Deed.message? =
        script.instances.flatMap Instance.greetings ++ script.trailingMessages ∧
      ∀ (policy : Retry.Policy) (backend : Backend) (audience : Audience) (summary : Summary),
        (run policy backend script audience).result = .ok summary → summary.phase = .completed →
          Tells script summary (run policy backend script audience).events
            (run policy backend script.silent audience).events := by
  obtain ⟨tokens, flat, flow, last, tokens_eq, expands, delivered⟩ := delivered_of_build built
  refine ⟨tokens, flat, flow, last, tokens_eq, expands, delivered, ?_, ?_⟩
  · rw [greetings_of_delivered delivered, delivered.in_order]
  · intro policy backend audience summary result_eq completed
    exact tells_of_run result_eq completed

/-- A listing outlasts a reset and a blank batch, and is told once although its batch is repeated
and retried. -/
theorem listings_of_retried_batch :
    let text := "a\n:list\n:reset\nGO\nb\nGO 2\n:list"
    let deadlock : ServerError := { number := 1205, severity := 13, message := "deadlock" }
    let backend := Backend.ofLists [] [.finish (.error (.server deadlock))] []
    ∃ script tokens flat flow last summary,
      build (Resolver.ofFiles []) {} (.ofList []) text = .ok script ∧
        tokenize .script text = .ok tokens ∧
        Expands (Resolver.ofFiles []) (.ofList []) tokens flat flow last ∧
        Deed.Delivered (Deed.ofTokens (.ofList []) [] flat) script.batches.toList
          script.trailingMessages ∧
        ((run .usual backend script {}).result = .ok summary ∧ summary.phase = .completed) ∧
        Tells script summary (run .usual backend script {}).events
          (run .usual backend script.silent {}).events := by
  intro text deadlock backend
  have evaluated : (build (Resolver.ofFiles []) {} (.ofList []) text).toOption.map
      (fun script => (run .usual backend script {}).result.toOption.map Summary.phase) =
        some (some .completed) := by
    decide +kernel +zetaReduce
  cases built : build (Resolver.ofFiles []) {} (.ofList []) text with
  | error failure =>
      rw [built] at evaluated
      contradiction
  | ok script =>
      rw [built] at evaluated
      have ends : (run .usual backend script {}).result.toOption.map Summary.phase =
          some .completed := Option.some.inj evaluated
      obtain ⟨tokens, flat, flow, last, tokens_eq, expands, delivered, -, tells⟩ :=
        listings_of_build built
      cases result_eq : (run .usual backend script {}).result with
      | error stop =>
          rw [result_eq] at ends
          contradiction
      | ok summary =>
          rw [result_eq] at ends
          have completed : summary.phase = .completed := Option.some.inj ends
          exact ⟨script, tokens, flat, flow, last, summary, rfl, tokens_eq, expands, delivered,
            ⟨result_eq, completed⟩, tells _ _ _ _ result_eq completed⟩

end Engine
end SqlScript
