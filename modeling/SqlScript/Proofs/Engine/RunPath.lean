import SqlScript.Proofs.Engine.Settlement

/-!
# Every run follows a path

The instances of a script are run one after the other.  The trace of a whole run is a path of moves
from the start, and the machine at its end tells how the run ended.
-/

namespace SqlScript
namespace Engine

namespace Run

variable {scenario : Scenario} {machine : Machine}

/-- The instances before `rest` have been run, unless the run has ended. -/
def Carried (scenario : Scenario) (rest : List Instance) (result : Except Stop Verdict)
    (after : RunState) : Prop :=
  ∃ machine : Machine,
    match result with
    | .ok verdict => machine.Accounts scenario after ∧ Instance.Concluded verdict machine ∧
        (verdict = .goOn → machine.todo = rest)
    | .error stop => machine.Records scenario after ∧ machine.Halts scenario stop

/-- The action runs the next instances. -/
def Carries (scenario : Scenario) (action : Run Verdict) (targets : List Instance) : Prop :=
  ∀ rest state (machine : Machine), machine.Accounts scenario state → machine.stage = .between →
    machine.todo = targets ++ rest → action.Ensures state (Carried scenario rest)

theorem Leads.carried {post : Verdict → Machine → Prop} {rest : List Instance}
    {result : Except Stop Verdict} {after : RunState}
    (leads : Leads scenario machine post result after)
    (concluded : ∀ verdict machine', post verdict machine' →
      Instance.Concluded verdict machine' ∧ (verdict = .goOn → machine.todo = rest)) :
    Carried scenario rest result after := by
  obtain ⟨machine', todo_eq, holds⟩ := leads
  refine ⟨machine', ?_⟩
  cases result with
  | error stop => exact holds
  | ok verdict =>
      obtain ⟨accounts, holds⟩ := holds
      obtain ⟨concluded, goes_on⟩ := concluded verdict machine' holds
      exact ⟨accounts, concluded, fun verdict_eq => todo_eq.trans (goes_on verdict_eq)⟩

theorem Follows.carried {action : Run Verdict} {rest : List Instance} {state : RunState}
    (follows : Follows scenario machine action Instance.Concluded)
    (accounts : machine.Accounts scenario state) (todo_eq : machine.todo = rest) :
    action.Ensures state (Carried scenario rest) :=
  (follows state accounts).mono fun _ _ leads => leads.carried fun _ _ concluded =>
    ⟨concluded, fun _ => todo_eq⟩

variable (scenario)

theorem carries_instance (target : Instance) :
    Carries scenario (target.run scenario.policy scenario.backend) [target] := by
  intro rest state machine accounts stage_eq todo_eq
  have not_awaiting : ∀ phase, machine.stage.Fits phase → phase ≠ .awaiting := by
    rw [stage_eq]
    exact fun _ => id
  refine ensures_look_bind.mpr ?_
  have looked : machine.Accounts scenario { state with toAudience := state.looked } :=
    accounts.of_eq rfl rfl rfl
  cases state.cancelled with
  | true =>
      have skipped : Follows scenario machine target.cancel _ :=
        Instance.follows_cancel_of_idle (.skip stage_eq todo_eq) rfl rfl rfl not_awaiting
      have ended : Follows scenario machine (do target.cancel; return Verdict.cancelled)
          fun verdict after => verdict = .cancelled ∧ after.stage = .ending .cancelled :=
        follows_bind skipped fun _ _ stage_eq => follows_pure ⟨rfl, stage_eq⟩
      refine (ended _ looked).mono fun result after leads => leads.carried ?_
      rintro _ machine' ⟨rfl, stage_eq⟩
      exact ⟨stage_eq, fun same => nomatch same⟩
  | false =>
      have entered : machine.Records scenario
          { state with toAudience := state.looked, phase := .dispatching } :=
        ⟨accounts.path, accounts.ledger_eq⟩
      have begins : Move scenario machine (some (.event target.started)) _ :=
        .start stage_eq todo_eq
      refine ensures_enter_bind.mpr (ensures_emit_bind entered begins
        (fun same => nomatch same) ⟨machine, entered, begins.unended⟩ fun after begun => ?_)
      refine Follows.carried ?_ begun rfl
      dsimp only
      split
      · rename_i first_time
        refine Instance.follows_greetings ?_ (Instance.follows_attempts rfl)
        rw [Instance.greetings, if_pos first_time]
      · rename_i repeated
        refine Instance.follows_attempts ?_
        rw [Instance.greetings, if_neg repeated]

variable {scenario}

theorem carries_nil : Carries scenario (return .goOn) [] :=
  fun _ _ machine accounts stage_eq todo_eq =>
    ensures_pure.mpr ⟨machine, accounts, stage_eq, fun _ => todo_eq⟩

theorem carries_bind {targets targets' : List Instance} {first rest : Run Verdict}
    (carries_first : Carries scenario first targets)
    (carries_rest : Carries scenario rest targets') :
    Carries scenario (do
      match ← first with
      | .goOn => rest
      | verdict => return verdict) (targets ++ targets') := by
  intro behind state machine accounts stage_eq todo_eq
  rw [List.append_assoc] at todo_eq
  refine ensures_bind.mpr ((carries_first _ state machine accounts stage_eq todo_eq).mono
    fun result middle carried => ?_)
  obtain ⟨machine', carried⟩ := carried
  cases result with
  | error stop => exact ⟨machine', carried⟩
  | ok verdict =>
      obtain ⟨accounts', concluded, goes_on⟩ := carried
      cases verdict with
      | goOn => exact carries_rest behind middle machine' accounts' concluded (goes_on rfl)
      | halted | cancelled =>
          exact ensures_pure.mpr ⟨machine', accounts', concluded, fun same => nomatch same⟩

variable (scenario)

theorem carries_repeats (batch : Batch) {remaining : Nat}
    (enough : remaining ≤ batch.repeatCount) :
    Carries scenario (runRepeats scenario.policy scenario.backend batch remaining)
      ((List.range' (batch.repeatCount - remaining + 1) remaining).map
        fun repetition => { batch, repetition }) := by
  induction remaining with
  | zero => exact carries_nil
  | succ remaining induction =>
      have next_eq : batch.repeatCount - (remaining + 1) + 1 = batch.repeatCount - remaining := by
        omega
      rw [List.range'_succ, next_eq]
      exact carries_bind (carries_instance scenario _) (induction (by omega))

theorem carries_batches (batches : List Batch) :
    Carries scenario (runBatches scenario.policy scenario.backend batches)
      (batches.flatMap Batch.instances) := by
  induction batches with
  | nil => exact carries_nil
  | cons batch batches induction =>
      have repeats := carries_repeats scenario batch (Nat.le_refl batch.repeatCount)
      rw [Nat.sub_self] at repeats
      rw [List.flatMap_cons]
      exact carries_bind repeats induction

variable {scenario}

theorem follows_finish {phase : Phase} (stage_eq : machine.stage = .ending phase) :
    Follows scenario machine (finish scenario.backend phase) fun summary after =>
      summary.phase = phase ∧ after.stage = .ending phase ∧ after.held = none := by
  have closed : Interruptible.Follows scenario machine
      (Slot.close scenario.backend (return))
      (fun _ after => after = { machine with held := none })
      fun after => after = { machine with held := none } := by
    refine Slot.follows_close (fun session held_eq => .release stage_eq held_eq) ?_
      (Interruptible.follows_pure rfl)
    rw [stage_eq]
    exact id
  refine follows_bind closed ?_
  intro result machine' holds
  obtain rfl : machine' = { machine with held := none } := by
    cases result <;> exact holds
  refine follows_enter_bind (by rw [stage_eq]; trivial) ?_
  exact follows_get_bind fun state accounts => follows_pure ⟨rfl, stage_eq, rfl⟩

theorem follows_remarks {α : Type} {texts : List String} {next : Run α}
    {post : α → Machine → Prop} (stage_eq : machine.stage = .trailing texts)
    (rest : Follows scenario { machine with stage := .trailing [] } next post) :
    Follows scenario machine (do
      texts.forM fun text => emit (.message none text)
      next) post := by
  induction texts generalizing machine with
  | nil =>
      have same : machine = { machine with stage := .trailing [] } := by
        rw [← stage_eq]
      rw [same]
      exact rest
  | cons text texts induction =>
      rw [List.forM, bind_assoc]
      exact follows_emit_bind (.remark stage_eq) rfl (fun _ _ => trivial) (induction rfl rest)

end Run

namespace Machine

/-- The machine stands where a run ends with a summary. -/
def Finished (machine : Machine) (summary : Summary) : Prop :=
  machine.held = none ∧
    (machine.stage = .finished ∧ summary.phase = .completed ∨
      machine.stage = .ending summary.phase ∧ summary.phase ≠ .completed)

/-- The run may end with this result where the machine stands. -/
def Ends (scenario : Scenario) (machine : Machine) : Except Stop Summary → Prop
  | .ok summary => machine.Finished summary
  | .error stop => machine.Halts scenario stop

/-- Where no event has ended the run, it ends for want of a receiver, unless a call does not return
or the attempts cannot be counted. -/
theorem Ends.receiverGone {scenario : Scenario} {machine : Machine}
    {result : Except Stop Summary} (ends : machine.Ends scenario result)
    (unended : machine.stage.Unended) (returned : result ≠ .error .stalled)
    (counted : result ≠ .error .uncounted) : result = .error (.failed .receiverGone) := by
  cases result with
  | ok summary =>
      rcases ends.2 with ⟨stage_eq, -⟩ | ⟨stage_eq, other⟩
      · simp [stage_eq, Stage.Unended] at unended
      · rw [stage_eq] at unended
        exact absurd unended other
  | error stop =>
      cases stop with
      | stalled => contradiction
      | uncounted => contradiction
      | failed failure =>
          cases failure with
          | receiverGone => rfl
          | connection | internal => simp [ends.1, Stage.Unended] at unended

end Machine

namespace Run

variable {scenario : Scenario} {machine : Machine}

theorem follows_complete (stage_eq : machine.stage = .between) (todo_eq : machine.todo = []) :
    Follows scenario machine (do
      scenario.script.trailingMessages.forM fun text => emit (.message none text)
      let summary ← finish scenario.backend .completed
      emit (.scriptCompleted summary)
      return summary) fun summary after => after.Finished summary := by
  refine .silent (.trail stage_eq todo_eq) rfl rfl (fun _ _ => trivial) (follows_remarks rfl ?_)
  refine .silent (.wind rfl) rfl rfl (fun _ _ => trivial) (follows_bind (follows_finish rfl) ?_)
  rintro summary machine ⟨phase_eq, stage_eq, held_eq⟩
  exact follows_emit_bind (.conclude stage_eq held_eq phase_eq) rfl (fun _ _ => trivial)
    (follows_pure ⟨held_eq, .inl ⟨rfl, phase_eq⟩⟩)

/-- What a script leads to. -/
def Ran (scenario : Scenario) (result : Except Stop Summary) (after : RunState) : Prop :=
  ∃ machine : Machine, machine.Records scenario after ∧ machine.Ends scenario result

theorem Leads.ran {result : Except Stop Summary} {after : RunState}
    (leads : Leads scenario machine (fun summary after => after.Finished summary) result after) :
    Ran scenario result after := by
  obtain ⟨machine', -, holds⟩ := leads
  cases result with
  | ok summary => exact ⟨machine', holds.1.toRecords, holds.2⟩
  | error stop => exact ⟨machine', holds⟩

/-- Where an instance has ended the run, only the session is left to be closed. -/
theorem follows_end {phase : Phase} (stage_eq : machine.stage = .ending phase)
    (not_completed : phase ≠ .completed) :
    Follows scenario machine (finish scenario.backend phase)
      fun summary after => after.Finished summary := by
  refine (follows_finish stage_eq).mono ?_
  rintro summary machine ⟨rfl, stage_eq, held_eq⟩
  exact ⟨held_eq, .inr ⟨stage_eq, not_completed⟩⟩

theorem ensures_script {state : RunState}
    (accounts : (Machine.start scenario.script).Accounts scenario state) :
    (runScript scenario.policy scenario.backend scenario.script).Ensures state (Ran scenario) := by
  have entered :
      (Machine.start scenario.script).Accounts scenario { state with phase := .running } :=
    { toRecords := ⟨accounts.path, accounts.ledger_eq⟩
      fits := fun same => nomatch same }
  have batches := carries_batches scenario scenario.script.runnable [] _ _ entered rfl
    (List.append_nil _).symm
  refine ensures_enter_bind.mpr (ensures_bind.mpr (batches.mono fun result middle carried => ?_))
  obtain ⟨machine, carried⟩ := carried
  cases result with
  | error stop => exact ⟨machine, carried⟩
  | ok verdict =>
      obtain ⟨accounts, concluded, goes_on⟩ := carried
      cases verdict with
      | goOn =>
          exact (follows_complete concluded (goes_on rfl) middle accounts).mono
            fun _ _ leads => leads.ran
      | halted =>
          exact (follows_end concluded (fun same => nomatch same) middle accounts).mono
            fun _ _ leads => leads.ran
      | cancelled =>
          exact (follows_end concluded (fun same => nomatch same) middle accounts).mono
            fun _ _ leads => leads.ran

/-- A run that fails lets its session go; unless nobody receives events, there is none. -/
theorem ensures_discard_of_halts {failure : RunError} {state : RunState}
    (records : machine.Records scenario state) (halts : machine.Halts scenario (.failed failure)) :
    discardSession.Ensures state fun result after => result = .ok () ∧
      ∃ machine' : Machine, machine'.Records scenario after ∧
        machine'.Halts scenario (.failed failure) := by
  have held_eq : state.session = machine.held := congrArg Ledger.held records.ledger_eq
  refine ensures_get_bind.mpr ?_
  rw [held_eq]
  cases machine_held : machine.held with
  | none => exact ⟨rfl, machine, records, halts⟩
  | some session =>
      cases failure with
      | receiverGone =>
          refine ⟨rfl, _, records.move (.lose machine_held halts) Array.toList_push ?_, trivial⟩
          exact congrArg (fun ledger => { ledger with held := none }) records.ledger_eq
      | connection => simp [halts.2] at machine_held
      | internal => simp [halts.2.1] at machine_held

theorem ensures_guarded {action : Run Summary} {state : RunState}
    (ensures : action.Ensures state (Ran scenario)) :
    (guarded action).Ensures state (Ran scenario) := by
  refine ensures_tryCatch.mpr (ensures.mono fun result middle ran => ?_)
  cases result with
  | ok summary => exact ran
  | error stop =>
      obtain ⟨machine, records, halts⟩ := ran
      cases stop with
      | stalled => exact ⟨machine, records, halts⟩
      | uncounted => exact ⟨machine, records, halts⟩
      | failed failure =>
          refine ensures_bind.mpr ((ensures_discard_of_halts records halts).mono ?_)
          rintro _ after ⟨rfl, machine', records', halts'⟩
          exact ⟨machine', records', halts'⟩

end Run

/-- The trace of a run is a path from the start, and the machine at its end tells how the run
ended. -/
theorem path_of_run (policy : Retry.Policy) (backend : Backend) (script : Script)
    (audience : Audience) :
    let scenario : Scenario := { policy, backend, script }
    let outcome := run policy backend script audience
    ∃ machine, Path scenario (.start script) outcome.trace machine ∧
      machine.Ends scenario outcome.result := by
  intro scenario outcome
  have start : (Machine.start script).Accounts scenario { toAudience := audience } :=
    { path := .nil, ledger_eq := rfl, fits := fun same => nomatch same }
  obtain ⟨machine, records, ends⟩ := Run.ensures_guarded (Run.ensures_script start)
  exact ⟨machine, records.path, ends⟩

end Engine
end SqlScript
