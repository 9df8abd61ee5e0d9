import SqlScript.Proofs.Engine.Stages
import SqlScript.Proofs.Engine.Waiting

/-!
# What actions of a run do to its machine

A machine accounts for a state if the trace of the state leads to it.  An action follows the moves
of the machine if some machine accounts for every state in which the action ends.  There is one rule
for each way of putting actions together, and one for each sort of change that an action makes.
-/

namespace SqlScript
namespace Engine

/-- What a machine knows of the state. -/
def RunState.ledger (state : RunState) : Ledger where
  held := state.session
  openings := state.openings
  executions := state.executions
  sessions := state.sessions

namespace Machine

/-- The trace leads to the machine. -/
structure Records (scenario : Scenario) (machine : Machine) (state : RunState) : Prop where
  path : Path scenario (.start scenario.script) state.trace.toList machine
  ledger_eq : state.ledger = machine.toLedger

/-- The trace leads to the machine, and the run may go on from it. -/
structure Accounts (scenario : Scenario) (machine : Machine) (state : RunState) : Prop
    extends machine.Records scenario state where
  fits : machine.stage.Fits state.phase

/-- The run may stop for this reason where the machine stands. -/
def Halts (scenario : Scenario) (machine : Machine) : Stop → Prop
  | .failed (.connection failure) => machine.stage = .barred failure ∧ machine.held = none
  | .failed (.internal message _ _ _) =>
      machine.stage = .aborted ∧ machine.held = none ∧
        message = "backend cancelled a batch without a cancel request"
  | .failed .receiverGone => machine.stage.Unended
  | .stalled => machine.stage.Stalls scenario.backend
  | .uncounted =>
      scenario.policy.maxRetries + 1 = 0 ∧
        ∃ target attempt tries, machine.stage = .acquiring target attempt tries ∧
          (attempt = UInt32.size ∨ machine.held = none ∧ tries + 1 = UInt32.size)

variable {scenario : Scenario} {machine machine' : Machine} {state after : RunState}

theorem Records.move {label : Option Entry} (records : machine.Records scenario state)
    (move : Move scenario machine label machine')
    (trace_eq : after.trace.toList = state.trace.toList ++ label.toList)
    (ledger_eq : after.ledger = machine'.toLedger) : machine'.Records scenario after where
  path := by
    rw [trace_eq]
    exact records.path.snoc move
  ledger_eq := ledger_eq

theorem Accounts.move {label : Option Entry} (accounts : machine.Accounts scenario state)
    (move : Move scenario machine label machine')
    (trace_eq : after.trace.toList = state.trace.toList ++ label.toList)
    (ledger_eq : after.ledger = machine'.toLedger) (fits : machine'.stage.Fits after.phase) :
    machine'.Accounts scenario after where
  toRecords := accounts.toRecords.move move trace_eq ledger_eq
  fits := fits

theorem Accounts.held_eq (accounts : machine.Accounts scenario state) :
    state.session = machine.held :=
  congrArg Ledger.held accounts.ledger_eq

theorem Accounts.executions_eq (accounts : machine.Accounts scenario state) :
    state.executions = machine.executions :=
  congrArg Ledger.executions accounts.ledger_eq

theorem Accounts.openings_eq (accounts : machine.Accounts scenario state) :
    state.openings = machine.openings :=
  congrArg Ledger.openings accounts.ledger_eq

theorem Accounts.sessions_eq (accounts : machine.Accounts scenario state) :
    state.sessions = machine.sessions :=
  congrArg Ledger.sessions accounts.ledger_eq

/-- What no machine knows may change. -/
theorem Accounts.of_eq (accounts : machine.Accounts scenario state)
    (trace_eq : after.trace = state.trace) (ledger_eq : after.ledger = state.ledger)
    (phase_eq : after.phase = state.phase) : machine.Accounts scenario after where
  path := by
    rw [trace_eq]
    exact accounts.path
  ledger_eq := ledger_eq.trans accounts.ledger_eq
  fits := by
    rw [phase_eq]
    exact accounts.fits

end Machine

/-- Events change nothing but the stage. -/
theorem Move.ledger_of_event {scenario : Scenario} {machine machine' : Machine} {event : Event}
    (move : Move scenario machine (some (.event event)) machine') :
    machine'.toLedger = machine.toLedger := by
  cases move <;> rfl

namespace Run

variable {α β : Type} {scenario : Scenario} {machine machine' : Machine}

/-- Within an instance, `machine` has come to one that accounts for the state and of which `post`
holds, unless the run stops. -/
def Leads (scenario : Scenario) (machine : Machine) (post : α → Machine → Prop)
    (result : Except Stop α) (after : RunState) : Prop :=
  ∃ machine' : Machine, machine'.todo = machine.todo ∧
    match result with
    | .ok value => machine'.Accounts scenario after ∧ post value machine'
    | .error stop => machine'.Records scenario after ∧ machine'.Halts scenario stop

/-- Begun where `machine` accounts for the state, the action follows its moves. -/
def Follows (scenario : Scenario) (machine : Machine) (action : Run α)
    (post : α → Machine → Prop) : Prop :=
  ∀ state, machine.Accounts scenario state → action.Ensures state (Leads scenario machine post)

variable {post : α → Machine → Prop}

theorem Leads.trans {result : Except Stop α} {after : RunState}
    (leads : Leads scenario machine' post result after)
    (todo_eq : machine'.todo = machine.todo) : Leads scenario machine post result after := by
  obtain ⟨last, last_eq, holds⟩ := leads
  exact ⟨last, last_eq.trans todo_eq, holds⟩

theorem Follows.mono {action : Run α} {post' : α → Machine → Prop}
    (follows : Follows scenario machine action post)
    (weaker : ∀ value machine', post value machine' → post' value machine') :
    Follows scenario machine action post' := by
  intro state accounts
  refine (follows state accounts).mono fun result after holds => ?_
  obtain ⟨machine', todo_eq, holds⟩ := holds
  refine ⟨machine', todo_eq, ?_⟩
  cases result with
  | ok value => exact ⟨holds.1, weaker value machine' holds.2⟩
  | error stop => exact holds

/-- Once the machine has moved, the rest of an action follows its moves. -/
theorem Follows.ensures {action : Run α} {state : RunState}
    (follows : Follows scenario machine' action post) (accounts : machine'.Accounts scenario state)
    (todo_eq : machine'.todo = machine.todo) :
    action.Ensures state (Leads scenario machine post) :=
  (follows state accounts).mono fun _ _ leads => leads.trans todo_eq

theorem follows_pure {value : α} (holds : post value machine) :
    Follows scenario machine (pure value) post :=
  fun _ accounts => ensures_pure.mpr ⟨machine, rfl, accounts, holds⟩

theorem follows_throw {stop : Stop} (halts : machine.Halts scenario stop) :
    Follows scenario machine (throw stop : Run α) post :=
  fun _ accounts => ensures_throw.mpr ⟨machine, rfl, accounts.toRecords, halts⟩

theorem follows_bind {action : Run α} {next : α → Run β} {post' : β → Machine → Prop}
    (first : Follows scenario machine action post)
    (rest : ∀ value machine', post value machine' →
      Follows scenario machine' (next value) post') :
    Follows scenario machine (action >>= next) post' := by
  intro state accounts
  refine ensures_bind.mpr ((first state accounts).mono fun result middle holds => ?_)
  obtain ⟨middle_machine, todo_eq, holds⟩ := holds
  cases result with
  | error stop => exact ⟨middle_machine, todo_eq, holds⟩
  | ok value =>
      exact (rest value middle_machine holds.2).ensures holds.1 todo_eq

theorem follows_get_bind {next : RunState → Run α}
    (rest : ∀ state, machine.Accounts scenario state →
      Follows scenario machine (next state) post) :
    Follows scenario machine (get >>= next) post :=
  fun state accounts => ensures_get_bind.mpr (rest state accounts state accounts)

/-- The machine makes a move of its own. -/
theorem Follows.silent {action : Run α} (move : Move scenario machine none machine')
    (ledger_eq : machine'.toLedger = machine.toLedger) (todo_eq : machine'.todo = machine.todo)
    (fits : ∀ phase, machine.stage.Fits phase → machine'.stage.Fits phase)
    (follows : Follows scenario machine' action post) : Follows scenario machine action post := by
  intro state accounts
  have moved : machine'.Accounts scenario state :=
    accounts.move move (List.append_nil _).symm (accounts.ledger_eq.trans ledger_eq.symm)
      (fits _ accounts.fits)
  exact follows.ensures moved todo_eq

/-- A change of the state with the move that accounts for it. -/
theorem follows_modify {label : Option Entry} {change : RunState → RunState}
    (move : Move scenario machine label machine') (todo_eq : machine'.todo = machine.todo)
    (trace_eq : ∀ state, (change state).trace.toList = state.trace.toList ++ label.toList)
    (ledger_eq : ∀ state, machine.Accounts scenario state →
      (change state).ledger = machine'.toLedger)
    (fits : ∀ state, machine.stage.Fits state.phase → machine'.stage.Fits (change state).phase) :
    Follows scenario machine (modify change) fun _ after => after = machine' := by
  intro state accounts
  have moved := accounts.move move (trace_eq state) (ledger_eq state accounts)
    (fits state accounts.fits)
  exact ensures_modify.mpr ⟨machine', todo_eq, moved, rfl⟩

/-- A change of what no machine knows. -/
theorem follows_unseen {change : RunState → RunState}
    (trace_eq : ∀ state, (change state).trace = state.trace)
    (ledger_eq : ∀ state, (change state).ledger = state.ledger)
    (phase_eq : ∀ state, (change state).phase = state.phase) :
    Follows scenario machine (modify change) fun _ after => after = machine :=
  fun state accounts => ensures_modify.mpr
    ⟨machine, rfl, accounts.of_eq (trace_eq state) (ledger_eq state) (phase_eq state), rfl⟩

theorem ensures_look_bind {next : Bool → Run α} {state : RunState}
    {ensured : Except Stop α → RunState → Prop} :
    (look >>= next).Ensures state ensured ↔
      (next state.cancelled).Ensures { state with toAudience := state.looked } ensured := Iff.rfl

theorem follows_look : Follows scenario machine look fun _ after => after = machine :=
  fun _ accounts => ⟨machine, rfl, accounts.of_eq rfl rfl rfl, rfl⟩

theorem follows_requestCancel :
    Follows scenario machine requestCancel fun _ after => after = machine :=
  follows_unseen (fun _ => rfl) (fun _ => rfl) fun _ => rfl

theorem follows_dropReceiver :
    Follows scenario machine dropReceiver fun _ after => after = machine :=
  follows_unseen (fun _ => rfl) (fun _ => rfl) fun _ => rfl

/-- A call is noted together with a change of the state, and the machine makes the call. -/
theorem follows_call_bind {call : Call} {change : RunState → RunState} {next : Run α}
    (move : Move scenario machine (some (.call call)) machine')
    (todo_eq : machine'.todo = machine.todo)
    (trace_eq : ∀ state, (change state).trace = state.trace)
    (ledger_eq : ∀ state, state.ledger = machine.toLedger →
      (change state).ledger = machine'.toLedger)
    (fits : ∀ state, machine.stage.Fits state.phase → machine'.stage.Fits (change state).phase)
    (rest : Follows scenario machine' next post) :
    Follows scenario machine (do record call; modify change; next) post := by
  intro state accounts
  let noted : RunState := { state with trace := state.trace.push (.call call) }
  have moved : machine'.Accounts scenario (change noted) := by
    refine accounts.move move ?_ (ledger_eq noted accounts.ledger_eq) (fits noted accounts.fits)
    rw [trace_eq noted]
    exact Array.toList_push
  exact rest.ensures moved todo_eq

theorem ensures_enter_bind {phase : Phase} {next : Run α} {state : RunState}
    {ensured : Except Stop α → RunState → Prop} :
    (do enter phase; next).Ensures state ensured ↔
      next.Ensures { state with phase } ensured := Iff.rfl

theorem follows_enter_bind {phase : Phase} {next : Run α} (fits : machine.stage.Fits phase)
    (rest : Follows scenario machine next post) :
    Follows scenario machine (do enter phase; next) post := by
  intro state accounts
  have entered : machine.Accounts scenario { state with phase } :=
    { toRecords := ⟨accounts.path, accounts.ledger_eq⟩, fits }
  exact ensures_enter_bind.mpr (rest _ entered)

/-- A phase is entered, and the machine passes to another stage. -/
theorem follows_pass_bind {phase : Phase} {next : Run α}
    (move : Move scenario machine none machine')
    (ledger_eq : machine'.toLedger = machine.toLedger) (todo_eq : machine'.todo = machine.todo)
    (fits : machine'.stage.Fits phase) (rest : Follows scenario machine' next post) :
    Follows scenario machine (do enter phase; next) post := by
  refine follows_bind (follows_modify move todo_eq (fun _ => (List.append_nil _).symm) ?_
    fun _ _ => fits) ?_
  · intro state accounts
    exact accounts.ledger_eq.trans ledger_eq.symm
  · rintro _ _ rfl
    exact rest

/-- An event is sent, and the machine passes to another stage. -/
theorem ensures_emit_bind {event : Event} {next : Run α} {state : RunState}
    {ensured : Except Stop α → RunState → Prop} (records : machine.Records scenario state)
    (move : Move scenario machine (some (.event event)) machine')
    (fits : machine'.stage.Fits state.phase)
    (refused : ensured (.error (.failed .receiverGone)) state)
    (sent : ∀ after, machine'.Accounts scenario after → next.Ensures after ensured) :
    (do emit event; next).Ensures state ensured := by
  refine ensures_bind.mpr (ensures_get_bind.mpr ?_)
  split
  · exact ensures_throw.mpr refused
  · refine ensures_set.mpr (sent _ { toRecords := records.move move ?_ ?_, fits })
    · simp
    · exact records.ledger_eq.trans move.ledger_of_event.symm

theorem follows_emit_bind {event : Event} {next : Run α}
    (move : Move scenario machine (some (.event event)) machine')
    (todo_eq : machine'.todo = machine.todo)
    (fits : ∀ phase, machine.stage.Fits phase → machine'.stage.Fits phase)
    (rest : Follows scenario machine' next post) :
    Follows scenario machine (do emit event; next) post :=
  fun _ accounts => ensures_emit_bind accounts.toRecords move (fits _ accounts.fits)
    ⟨machine, rfl, accounts.toRecords, move.unended⟩ fun _ sent => rest.ensures sent todo_eq

theorem follows_emit {event : Event} (move : Move scenario machine (some (.event event)) machine')
    (todo_eq : machine'.todo = machine.todo)
    (fits : ∀ phase, machine.stage.Fits phase → machine'.stage.Fits phase) :
    Follows scenario machine (emit event) fun _ after => after = machine' := by
  have sent : Follows scenario machine' (pure ()) fun _ after => after = machine' :=
    follows_pure rfl
  rw [← bind_pure (emit event)]
  exact follows_emit_bind move todo_eq fits sent

/-- A phase is entered and an event sent, and the machine passes to another stage. -/
theorem follows_enter_emit_bind {phase : Phase} {event : Event} {next : Run α}
    (move : Move scenario machine (some (.event event)) machine')
    (todo_eq : machine'.todo = machine.todo) (fits : machine'.stage.Fits phase)
    (rest : Follows scenario machine' next post) :
    Follows scenario machine (do enter phase; emit event; next) post := by
  intro state accounts
  have entered : machine.Records scenario { state with phase } :=
    ⟨accounts.path, accounts.ledger_eq⟩
  exact ensures_enter_bind.mpr (ensures_emit_bind entered move fits
    ⟨machine, rfl, entered, move.unended⟩ fun _ sent => rest.ensures sent todo_eq)

/-- The session that is held is let go. -/
theorem follows_discardSession {session : Session} (held_eq : machine.held = some session)
    (move : Move scenario machine (some (.call (.discard session.number))) machine')
    (ledger_eq : machine'.toLedger = { machine.toLedger with held := none })
    (todo_eq : machine'.todo = machine.todo)
    (fits : ∀ phase, machine.stage.Fits phase → machine'.stage.Fits phase) :
    Follows scenario machine discardSession fun _ after => after = machine' := by
  intro state accounts
  unfold discardSession
  refine ensures_get_bind.mpr ?_
  rw [accounts.held_eq, held_eq]
  refine ⟨machine', todo_eq, accounts.move move Array.toList_push ?_ (fits _ accounts.fits), rfl⟩
  rw [ledger_eq, ← accounts.ledger_eq]
  rfl

theorem follows_discardSession_of_none (held_eq : machine.held = none) :
    Follows scenario machine discardSession fun _ after => after = machine := by
  refine follows_get_bind fun state accounts => ?_
  rw [accounts.held_eq, held_eq]
  exact follows_pure rfl

end Run

namespace Interruptible

variable {α β : Type} {scenario : Scenario} {machine machine' : Machine}
  {post : α → Machine → Prop} {cut : Machine → Prop}

/-- The action follows the moves of the machine, and `cut` holds of the machine if it is
interrupted. -/
def Follows (scenario : Scenario) (machine : Machine) (action : Interruptible α)
    (post : α → Machine → Prop) (cut : Machine → Prop) : Prop :=
  Run.Follows scenario machine action.run fun result after =>
    match result with
    | some value => post value after
    | none => cut after

theorem follows_pure {value : α} (holds : post value machine) :
    Follows scenario machine (pure value) post cut :=
  Run.follows_pure holds

theorem follows_bind {action : Interruptible α} {next : α → Interruptible β}
    {post' : β → Machine → Prop} (first : Follows scenario machine action post cut)
    (rest : ∀ value machine', post value machine' →
      Follows scenario machine' (next value) post' cut) :
    Follows scenario machine (action >>= next) post' cut := by
  unfold Follows
  rw [OptionT.run_bind]
  refine Run.follows_bind first fun result machine' holds => ?_
  cases result with
  | none => exact Run.follows_pure holds
  | some value => exact rest value machine' holds

theorem follows_lift {action : Run α} (follows : Run.Follows scenario machine action post) :
    Follows scenario machine (liftM action) post cut := by
  change Run.Follows scenario machine (action >>= fun value => pure (some value)) _
  exact Run.follows_bind follows fun _ _ holds => Run.follows_pure holds

theorem follows_get_bind {next : RunState → Interruptible α}
    (rest : ∀ state, machine.Accounts scenario state →
      Follows scenario machine (next state) post cut) :
    Follows scenario machine (get >>= next) post cut := by
  unfold Follows
  rw [OptionT.run_bind]
  exact Run.follows_get_bind rest

theorem ensures_get_bind {next : RunState → Interruptible α} {state : RunState}
    {post : Except Stop (Option α) → RunState → Prop} :
    Run.Ensures (get >>= next : Interruptible α).run state post ↔
      Run.Ensures (next state).run state post := Iff.rfl

theorem ensures_modify_bind {change : RunState → RunState} {next : Interruptible α}
    {state : RunState} {post : Except Stop (Option α) → RunState → Prop} :
    Run.Ensures (do modify change; next : Interruptible α).run state post ↔
      Run.Ensures next.run (change state) post := Iff.rfl

theorem ensures_record_bind {call : Call} {next : Interruptible α} {state : RunState}
    {post : Except Stop (Option α) → RunState → Prop} :
    Run.Ensures (do Run.record call; next : Interruptible α).run state post ↔
      Run.Ensures next.run { state with trace := state.trace.push (.call call) } post := Iff.rfl

theorem follows_checkpoint (cut_here : cut machine) :
    Follows scenario machine checkpoint (fun _ after => after = machine) cut := by
  refine follows_bind (follows_lift Run.follows_look) ?_
  rintro cancelled _ rfl
  cases cancelled with
  | true => exact Run.follows_pure cut_here
  | false => exact follows_pure rfl

theorem follows_abandon {stop : Stop} (halts : machine.Halts scenario stop) :
    Follows scenario machine (abandon stop : Interruptible α) post cut :=
  follows_lift (Run.follows_throw halts)

theorem follows_await {turn : Interruptible Unit} {behavior : Behavior}
    (follows_turn : behavior.turns ≠ [] →
      Follows scenario machine turn (fun _ after => after = machine) cut)
    (stalls : behavior.outcome? = none → machine.stage.Stalls scenario.backend) :
    Follows scenario machine (await turn behavior)
      (fun outcome after => after = machine ∧ behavior.outcome? = some outcome) cut := by
  induction behavior with
  | finish outcome => exact follows_pure ⟨rfl, rfl⟩
  | stall =>
      refine follows_bind (follows_turn (by simp [Behavior.turns])) ?_
      rintro _ _ rfl
      exact follows_abandon (stalls rfl)
  | yield next induction =>
      have follows_turn := follows_turn (by simp [Behavior.turns])
      refine follows_bind follows_turn ?_
      rintro _ _ rfl
      exact induction (fun _ => follows_turn) stalls
  | notify notice next induction =>
      exact induction (fun turns => follows_turn (by simpa [Behavior.turns] using turns)) stalls
  | cancel next induction =>
      refine follows_bind (follows_lift Run.follows_requestCancel) ?_
      rintro _ _ rfl
      exact induction follows_turn stalls
  | dropReceiver next induction =>
      refine follows_bind (follows_lift Run.follows_dropReceiver) ?_
      rintro _ _ rfl
      exact induction follows_turn stalls

end Interruptible
end Engine
end SqlScript
