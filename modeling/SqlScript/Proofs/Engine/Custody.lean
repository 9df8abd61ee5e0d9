import SqlScript.Proofs.Engine.RunPath

/-!
# Sessions of a run

A trace tells which sessions were opened, which of them broke, and which were released.  Sessions
are numbered from one as they open, and a run has at most one of them at a time: the sessions that
were released and the one it has, if any, are all sessions in the order in which they opened.
-/

namespace SqlScript
namespace Engine

/-- The call opens a session. -/
def Behavior.succeeds (behavior : Behavior) : Bool :=
  match behavior.outcome? with
  | some (.ok _) => true
  | _ => false

/-- The call ends with an error that makes its session unusable. -/
def Behavior.breaks (behavior : Behavior) : Bool :=
  match behavior.outcome? with
  | some (.error failure) => failure.breaksConnection
  | _ => false

namespace Trace

variable {backend : Backend}

/-- The targets for which sessions were to be opened, in order. -/
def wanted (trace : List Entry) : List (Option String) :=
  trace.filterMap fun entry =>
    match entry with
    | .call (.openSession target) => some target
    | _ => none

/-- The sessions on which batches were run, in order. -/
def executed (trace : List Entry) : List Nat :=
  trace.filterMap fun entry =>
    match entry with
    | .call (.execute session _) => some session
    | _ => none

theorem executed_append (trace trace' : List Entry) :
    executed (trace ++ trace') = executed trace ++ executed trace' :=
  List.filterMap_append

/-- The sessions that were closed or let go, in order. -/
def released (trace : List Entry) : List Nat :=
  trace.filterMap fun entry =>
    match entry with
    | .call (.close session) | .call (.discard session) => some session
    | _ => none

/-- The targets of the sessions that opened, in order. -/
def opened (backend : Backend) (trace : List Entry) : List (Option String) :=
  (wanted trace).zipIdx.filterMap fun (target, call) =>
    if (backend.opening call).succeeds then some target else none

/-- The sessions on which a batch ended with an error that made them unusable. -/
def broken (backend : Backend) (trace : List Entry) : List Nat :=
  (executed trace).zipIdx.filterMap fun (session, call) =>
    if (backend.executing call).breaks then some session else none

theorem opened_concat_open (trace : List Entry) (target : Option String) :
    opened backend (trace ++ [.call (.openSession target)]) =
      opened backend trace ++
        if (backend.opening (wanted trace).length).succeeds then [target] else [] := by
  have wanted_eq : wanted (trace ++ [.call (.openSession target)]) = wanted trace ++ [target] := by
    simp [wanted]
  unfold opened
  rw [wanted_eq, List.zipIdx_append, List.filterMap_append]
  cases succeeds : (backend.opening (wanted trace).length).succeeds <;> simp [succeeds]

theorem broken_concat_execute (trace : List Entry) (session : Nat) (text : String) :
    broken backend (trace ++ [.call (.execute session text)]) =
      broken backend trace ++
        if (backend.executing (executed trace).length).breaks then [session] else [] := by
  have executed_eq : executed (trace ++ [.call (.execute session text)]) =
      executed trace ++ [session] := by
    simp [executed]
  unfold broken
  rw [executed_eq, List.zipIdx_append, List.filterMap_append]
  cases breaks : (backend.executing (executed trace).length).breaks <;> simp [breaks]

end Trace

open Trace

/-- What happened is the same as far as sessions are concerned. -/
structure SameSessions (trace trace' : List Entry) : Prop where
  wanted_eq : wanted trace' = wanted trace
  executed_eq : executed trace' = executed trace
  released_eq : released trace' = released trace

theorem sameSessions_of_quiet {label : Option Entry} (trace : List Entry)
    (quiet : ∀ call, label ≠ some (.call call)) : SameSessions trace (trace ++ label.toList) := by
  rcases label with _ | call | event
  · exact ⟨by simp, by simp, by simp⟩
  · exact absurd rfl (quiet call)
  · exact ⟨by simp [wanted], by simp [executed], by simp [released]⟩

namespace SameSessions

variable {backend : Backend} {trace trace' : List Entry}

theorem opened_eq (same : SameSessions trace trace') :
    opened backend trace' = opened backend trace := by
  rw [opened, same.wanted_eq, opened]

theorem broken_eq (same : SameSessions trace trace') :
    broken backend trace' = broken backend trace := by
  rw [broken, same.executed_eq, broken]

end SameSessions

/-- The session that the run has, held or just opened. -/
def Machine.session? (machine : Machine) : Option Session :=
  match machine.stage with
  | .opened _ _ _ session => some session
  | _ => machine.held

theorem Machine.session?_of_not_opened {machine : Machine}
    (not_opened : ∀ target attempt tries session,
      machine.stage ≠ .opened target attempt tries session) :
    machine.session? = machine.held := by
  unfold session?
  split
  · rename_i stage_eq
    exact absurd stage_eq (not_opened _ _ _ _)
  · rfl

namespace Stage

/-- Sessions that have opened and that the run does not count yet.  A session that opens while the
run is cancelled is never counted. -/
def Pending (backend : Backend) (stage : Stage) (pending : List (Option String)) : Prop :=
  match stage with
  | opening target _ _ call =>
      pending = if (backend.opening call).succeeds then [target.batch.connectTarget] else []
  | leaving _ | ending _ | finished | lost => pending.length ≤ 1
  | _ => pending = []

/-- The session that is held has broken, or will be found to have broken. -/
def Taints (backend : Backend) : Stage → Prop
  | awaiting _ _ call _ | failed _ _ call _ => (backend.executing call).breaks = true
  | _ => False

theorem Pending.length_le {backend : Backend} {stage : Stage} {pending : List (Option String)}
    (pends : stage.Pending backend pending) : pending.length ≤ 1 := by
  cases stage with
  | opening =>
      cases pends
      split <;> simp
  | leaving | ending | finished | lost => exact pends
  | _ =>
      cases pends
      exact Nat.zero_le 1

theorem Idles.not_taints {backend : Backend} {stage : Stage} {target : Instance}
    (idles : stage.Idles backend target) : ¬stage.Taints backend := by
  cases idles <;> exact id

theorem Waits.pending_eq {backend : Backend} {stage : Stage} {target : Instance}
    {pending : List (Option String)} (waits : stage.Waits backend target)
    (pends : stage.Pending backend pending) : pending = [] := by
  cases waits <;> exact pends

/-- A new session is being opened. -/
def Renews : Stage → Prop
  | opening .. | opened .. => True
  | _ => False

end Stage

/-- The account of the sessions of a run. -/
structure Machine.Custody (backend : Backend) (trace : List Entry) (machine : Machine) : Prop where
  wanted_length : (wanted trace).length = machine.openings
  executed_length : (executed trace).length = machine.executions
  landed_length : machine.landed.length = machine.sessions
  opened_eq : ∃ pending, opened backend trace = machine.landed ++ pending ∧
    machine.stage.Pending backend pending ∧ (machine.session? ≠ none → pending = [])
  released_eq : released trace ++ (machine.session?.map Session.number).toList =
    List.range' 1 machine.sessions
  session : ∀ session, machine.session? = some session →
    session.number = machine.sessions ∧ machine.landed.getLast? = some session.target
  unheld : machine.stage.Renews → machine.held = none

/-- The machine has made no more calls and no more sessions have opened. -/
structure Machine.SameCounts (machine machine' : Machine) : Prop where
  openings_eq : machine'.openings = machine.openings
  executions_eq : machine'.executions = machine.executions
  sessions_eq : machine'.sessions = machine.sessions
  landed_eq : machine'.landed = machine.landed

theorem not_opened_of_interrupted {backend : Backend} {stage : Stage} {target : Instance}
    (interrupted : stage.Idles backend target ∨ stage.Waits backend target) (target' : Instance)
    (attempt tries : Nat) (session : Session) : stage ≠ .opened target' attempt tries session := by
  rintro rfl
  rcases interrupted with idles | waits
  · cases idles
  · cases waits

theorem Behavior.succeeds_of_ok {behavior : Behavior} {rows : Option Nat}
    (outcome_eq : behavior.outcome? = some (.ok rows)) : behavior.succeeds = true := by
  rw [succeeds, outcome_eq]

namespace Machine.Custody

variable {backend : Backend} {trace trace' : List Entry} {machine machine' : Machine}

theorem session?_of_held {session : Session} (custody : machine.Custody backend trace)
    (held_eq : machine.held = some session) : machine.session? = some session := by
  have unheld := custody.unheld
  unfold session?
  split
  · rename_i stage_eq
    rw [stage_eq, held_eq] at unheld
    exact nomatch unheld trivial
  · exact held_eq

/-- A move that makes no call and opens no session changes the account only through its stage. -/
theorem of_same (custody : machine.Custody backend trace)
    (same : SameSessions trace trace') (counts : machine.SameCounts machine')
    (session_eq : machine'.session? = machine.session?)
    (pending : ∀ pending, machine.stage.Pending backend pending →
      machine'.stage.Pending backend pending)
    (unheld : machine'.stage.Renews → machine'.held = none) :
    machine'.Custody backend trace' := by
  obtain ⟨waiting, opened_eq, waits, none_waits⟩ := custody.opened_eq
  refine ⟨?_, ?_, ?_, ⟨waiting, ?_, pending waiting waits, ?_⟩, ?_, ?_, unheld⟩
  · rw [same.wanted_eq, counts.openings_eq, custody.wanted_length]
  · rw [same.executed_eq, counts.executions_eq, custody.executed_length]
  · rw [counts.landed_eq, counts.sessions_eq, custody.landed_length]
  · rw [same.opened_eq, counts.landed_eq, opened_eq]
  · rwa [session_eq]
  · rw [same.released_eq, session_eq, counts.sessions_eq, custody.released_eq]
  · rw [session_eq, counts.sessions_eq, counts.landed_eq]
    exact custody.session

/-- The session that was held is released. -/
theorem release {session : Session} {call : Call} (custody : machine.Custody backend trace)
    (held_eq : machine.held = some session)
    (call_eq : call = .close session.number ∨ call = .discard session.number)
    (counts : machine.SameCounts machine') (unheld : machine'.held = none)
    (session_eq : machine'.session? = none) (pending : machine'.stage.Pending backend []) :
    machine'.Custody backend (trace ++ [.call call]) := by
  have had := custody.session?_of_held held_eq
  obtain ⟨waiting, opened_eq, waits, none_waits⟩ := custody.opened_eq
  obtain rfl : waiting = [] := none_waits (by simp [had])
  have wanted_eq : wanted (trace ++ [.call call]) = wanted trace := by
    rcases call_eq with rfl | rfl <;> simp [wanted]
  have executed_eq : executed (trace ++ [.call call]) = executed trace := by
    rcases call_eq with rfl | rfl <;> simp [executed]
  have released_eq : released (trace ++ [.call call]) = released trace ++ [session.number] := by
    rcases call_eq with rfl | rfl <;> simp [released]
  refine ⟨?_, ?_, ?_, ⟨[], ?_, pending, fun _ => rfl⟩, ?_, ?_, fun _ => unheld⟩
  · rw [wanted_eq, counts.openings_eq, custody.wanted_length]
  · rw [executed_eq, counts.executions_eq, custody.executed_length]
  · rw [counts.landed_eq, counts.sessions_eq, custody.landed_length]
  · rw [opened, wanted_eq, counts.landed_eq, ← opened_eq, opened]
  · have before := custody.released_eq
    rw [had] at before
    rw [released_eq, session_eq, counts.sessions_eq, ← before]
    simp
  · intro session no_session
    rw [session_eq] at no_session
    contradiction

end Machine.Custody

theorem Move.custody {scenario : Scenario} {machine machine' : Machine} {label : Option Entry}
    {trace : List Entry} (move : Move scenario machine label machine')
    (custody : machine.Custody scenario.backend trace) :
    machine'.Custody scenario.backend (trace ++ label.toList) := by
  cases move with
  | @ask target attempt tries stage_eq held_eq within =>
      have none_held : machine.session? = none := by
        simp [Machine.session?, stage_eq, held_eq]
      obtain ⟨waiting, opened_eq, waits, -⟩ := custody.opened_eq
      obtain rfl : waiting = [] := by simpa [Stage.Pending, stage_eq] using waits
      have opened_eq' : Trace.opened scenario.backend _ = _ :=
        opened_concat_open trace target.batch.connectTarget
      rw [custody.wanted_length, opened_eq, List.append_nil] at opened_eq'
      have released_eq := custody.released_eq
      rw [none_held] at released_eq
      refine ⟨?_, ?_, custody.landed_length, ⟨_, opened_eq', rfl, ?_⟩, ?_, ?_, fun _ => held_eq⟩
      · simp [wanted, ← custody.wanted_length]
      · simp [executed, ← custody.executed_length]
      · exact fun held => absurd held_eq held
      · simpa [released, Machine.session?, held_eq] using released_eq
      · intro session held
        simp [Machine.session?, held_eq] at held
  | @opened target attempt tries call rows stage_eq outcome_eq =>
      have held_eq : machine.held = none := custody.unheld (by rw [stage_eq]; trivial)
      have none_held : machine.session? = none := by
        simp [Machine.session?, stage_eq, held_eq]
      obtain ⟨waiting, opened_eq, waits, -⟩ := custody.opened_eq
      obtain rfl : waiting = [target.batch.connectTarget] := by
        simpa [Stage.Pending, stage_eq, Behavior.succeeds_of_ok outcome_eq] using waits
      have released_eq := custody.released_eq
      rw [none_held, Option.map_none, Option.toList_none, List.append_nil] at released_eq
      refine ⟨?_, ?_, ?_, ⟨[], ?_, rfl, fun _ => rfl⟩, ?_, ?_, fun _ => held_eq⟩
      · simpa using custody.wanted_length
      · simpa using custody.executed_length
      · simp [custody.landed_length]
      · simpa using opened_eq
      · simp [Machine.session?, released_eq, List.range'_concat, Nat.add_comm]
      · intro session same
        obtain rfl := Option.some.inj same
        simp
  | submit stage_eq held_eq target_eq =>
      have had := custody.session?_of_held held_eq
      obtain ⟨waiting, opened_eq, waits, none_waits⟩ := custody.opened_eq
      obtain rfl : waiting = [] := none_waits (by simp [had])
      have session_eq : machine.session? = machine.held := had.trans held_eq.symm
      refine ⟨?_, ?_, custody.landed_length, ⟨[], ?_, rfl, fun _ => rfl⟩, ?_, ?_, False.elim⟩
      · simpa [wanted] using custody.wanted_length
      · simp [executed, ← custody.executed_length]
      · simpa [Trace.opened, wanted] using opened_eq
      · rw [← custody.released_eq, session_eq]
        simp [released, Machine.session?]
      · rw [← session_eq] at held_eq
        exact fun session held => custody.session session (session_eq.trans held)
  | keep stage_eq =>
      refine custody.of_same (sameSessions_of_quiet trace fun _ => by simp)
        ⟨rfl, rfl, rfl, rfl⟩ ?_ ?_ ?_
      · rw [Machine.session?, Machine.session?, stage_eq]
      · simp [stage_eq, Stage.Pending]
      · exact False.elim
  | replace stage_eq held_eq other_target =>
      refine custody.release held_eq (scenario.backend.release_eq _) ⟨rfl, rfl, rfl, rfl⟩ rfl ?_ ?_
      · simp [Machine.session?, stage_eq]
      · simp [Stage.Pending, stage_eq]
  | discard stage_eq held_eq broken =>
      refine custody.release held_eq (.inr rfl) ⟨rfl, rfl, rfl, rfl⟩ rfl ?_ ?_
      · simp [Machine.session?, stage_eq]
      · simp [Stage.Pending, stage_eq]
  | letGo waits held_eq =>
      exact custody.release held_eq (.inr rfl) ⟨rfl, rfl, rfl, rfl⟩ rfl rfl (Nat.zero_le 1)
  | release stage_eq held_eq =>
      refine custody.release held_eq (scenario.backend.release_eq _) ⟨rfl, rfl, rfl, rfl⟩ rfl ?_ ?_
      · simp [Machine.session?, stage_eq]
      · simp [Stage.Pending, stage_eq]
  | lose held_eq =>
      exact custody.release held_eq (.inr rfl) ⟨rfl, rfl, rfl, rfl⟩ rfl rfl (Nat.zero_le 1)
  | leave interrupted =>
      have not_opened := not_opened_of_interrupted (interrupted.imp_right And.left)
      have pending : ∀ pending, machine.stage.Pending scenario.backend pending →
          pending.length ≤ 1 := by
        intro pending pends
        rcases interrupted with idles | ⟨waits, -⟩
        · exact pends.length_le
        · simp [waits.pending_eq pends]
      refine custody.of_same (sameSessions_of_quiet trace fun _ => by simp) ⟨rfl, rfl, rfl, rfl⟩
        ?_ pending False.elim
      rw [Machine.session?_of_not_opened not_opened]
      rfl
  | _ =>
      refine custody.of_same (sameSessions_of_quiet trace fun _ => by simp)
        ⟨rfl, rfl, rfl, rfl⟩ ?_ ?_ ?_
      · simp_all [Machine.session?]
      · simp_all [Stage.Pending, Behavior.succeeds]
      · simp_all [Stage.Renews]

theorem Behavior.breaks_of_error {behavior : Behavior} {failure : SessionError}
    (outcome_eq : behavior.outcome? = some (.error failure)) :
    behavior.breaks = failure.breaksConnection := by
  rw [breaks, outcome_eq]

/-- The failure at hand is that of the call. -/
def Stage.Failing (backend : Backend) : Stage → Prop
  | failed _ _ call failure | pausing _ _ call failure =>
      (backend.executing call).outcome? = some (.error failure)
  | _ => True

/-- Why the run has no session: none has opened, the last one broke, or it was for another target.
Where the run is about to end there need be no reason. -/
def Machine.Lacks (backend : Backend) (trace : List Entry) (machine : Machine) : Prop :=
  match machine.stage with
  | .acquiring target _ _ | .opening target _ _ _ =>
      machine.landed.getLast? = some target.batch.connectTarget →
        machine.sessions ∈ broken backend trace
  | .failed _ _ _ failure =>
      failure = .cancelled ∨ machine.sessions = 0 ∨ machine.sessions ∈ broken backend trace
  | .leaving _ | .trailing _ | .ending _ | .finished | .barred _ | .aborted | .lost => True
  | _ => machine.sessions = 0 ∨ machine.sessions ∈ broken backend trace

/-- What is known of the health of sessions. -/
structure Machine.Health (backend : Backend) (trace : List Entry) (machine : Machine) : Prop where
  failing : machine.stage.Failing backend
  bounded : ∀ number ∈ broken backend trace, number ≤ machine.sessions
  sound : ∀ session, machine.session? = some session →
    (session.number ∈ broken backend trace ↔ machine.stage.Taints backend)
  lacks : machine.session? = none → machine.Lacks backend trace

theorem Machine.Health.of_same {backend : Backend} {trace trace' : List Entry}
    {machine machine' : Machine} (health : machine.Health backend trace)
    (same : SameSessions trace trace') (counts : machine.SameCounts machine')
    (session_eq : machine'.session? = machine.session?)
    (failing : machine'.stage.Failing backend)
    (taints : machine.session? ≠ none →
      (machine.stage.Taints backend ↔ machine'.stage.Taints backend))
    (lacks : machine.session? = none → machine.Lacks backend trace → machine'.Lacks backend trace) :
    machine'.Health backend trace' := by
  have broken_eq : broken backend trace' = broken backend trace := same.broken_eq
  refine ⟨failing, ?_, ?_, ?_⟩
  · rw [broken_eq, counts.sessions_eq]
    exact health.bounded
  · intro session had
    rw [session_eq] at had
    rw [broken_eq, health.sound session had]
    exact taints (by simp [had])
  · intro none_had
    rw [session_eq] at none_had
    have lacks' := lacks none_had (health.lacks none_had)
    unfold Machine.Lacks at lacks' ⊢
    rwa [broken_eq]

/-- Where there is no session, only the reason for that matters. -/
theorem Machine.Health.release {backend : Backend} {trace : List Entry}
    {machine machine' : Machine} {session : Session} {call : Call}
    (health : machine.Health backend trace)
    (call_eq : call = .close session.number ∨ call = .discard session.number)
    (sessions_eq : machine'.sessions = machine.sessions)
    (session_eq : machine'.session? = none) (failing : machine'.stage.Failing backend)
    (lacks : machine'.Lacks backend trace) : machine'.Health backend (trace ++ [.call call]) := by
  have broken_eq : broken backend (trace ++ [.call call]) = broken backend trace := by
    rcases call_eq with rfl | rfl <;> simp [broken, executed]
  refine ⟨failing, ?_, ?_, fun _ => ?_⟩
  · rw [broken_eq, sessions_eq]
    exact health.bounded
  · simp [session_eq]
  · unfold Machine.Lacks at lacks ⊢
    rwa [broken_eq]

/-- A run that has counted no session has none with the wanted target. -/
theorem Machine.Custody.lacks_for {backend : Backend} {trace : List Entry} {machine : Machine}
    (custody : machine.Custody backend trace)
    (lacks : machine.sessions = 0 ∨ machine.sessions ∈ broken backend trace)
    (target : Option String) (last : machine.landed.getLast? = some target) :
    machine.sessions ∈ broken backend trace := by
  refine lacks.resolve_left fun none_opened => ?_
  have landed_nil : machine.landed = [] :=
    List.length_eq_zero_iff.mp (custody.landed_length.trans none_opened)
  simp [landed_nil] at last

/-- A session that is kept after a failure is still good. -/
theorem Machine.Health.not_taints {backend : Backend} {trace : List Entry} {machine : Machine}
    {target : Instance} {attempt call : Nat} {failure : SessionError}
    (health : machine.Health backend trace)
    (stage_eq : machine.stage = .failed target attempt call failure)
    (kept : failure.breaksConnection = true → machine.held = none)
    (had : machine.session? ≠ none) : ¬machine.stage.Taints backend := by
  have failing := health.failing
  rw [stage_eq] at failing ⊢
  intro taints
  have breaks : failure.breaksConnection = true :=
    (Behavior.breaks_of_error failing).symm.trans taints
  apply had
  rw [Machine.session?, stage_eq]
  exact kept breaks

theorem Move.health {scenario : Scenario} {machine machine' : Machine} {label : Option Entry}
    {trace : List Entry} (move : Move scenario machine label machine')
    (custody : machine.Custody scenario.backend trace)
    (health : machine.Health scenario.backend trace) :
    machine'.Health scenario.backend (trace ++ label.toList) := by
  cases move with
  | @ask target attempt tries stage_eq held_eq within =>
      have none_had : machine.session? = none := by
        simp [Machine.session?, stage_eq, held_eq]
      have lacks := health.lacks none_had
      have broken_eq : broken scenario.backend
          (trace ++ [.call (.openSession target.batch.connectTarget)]) =
            broken scenario.backend trace := by
        simp [broken, executed]
      rw [Machine.Lacks, stage_eq] at lacks
      refine ⟨trivial, ?_, ?_, ?_⟩
      · simpa [broken_eq] using health.bounded
      · simp [Machine.session?, held_eq]
      · intro _
        simpa [Machine.Lacks, broken_eq] using lacks
  | @opened target attempt tries call rows stage_eq outcome_eq =>
      refine ⟨trivial, ?_, ?_, ?_⟩
      · intro number member
        rw [Option.toList_none, List.append_nil] at member
        exact Nat.le_succ_of_le (health.bounded number member)
      · rintro session had
        obtain rfl := Option.some.inj had
        refine iff_of_false ?_ id
        rw [Option.toList_none, List.append_nil]
        exact fun member => Nat.not_succ_le_self _ (health.bounded _ member)
      · exact fun none_had => nomatch none_had
  | @submit target attempt session stage_eq held_eq target_eq =>
      have had := custody.session?_of_held held_eq
      obtain ⟨number_eq, -⟩ := custody.session session had
      have unbroken : session.number ∉ broken scenario.backend trace := by
        rw [health.sound session had, stage_eq]
        exact id
      have broken_eq : broken scenario.backend _ = _ :=
        broken_concat_execute trace session.number target.batch.text
      rw [custody.executed_length] at broken_eq
      refine ⟨trivial, ?_, ?_, ?_⟩
      · intro number member
        rw [Option.toList_some, broken_eq] at member
        rcases List.mem_append.mp member with before | now
        · exact health.bounded number before
        · split at now
          · exact Nat.le_of_eq ((List.mem_singleton.mp now).trans number_eq)
          · contradiction
      · intro session' had'
        obtain rfl : session' = session := by
          simpa [Machine.session?, held_eq, eq_comm] using had'
        rw [Option.toList_some, broken_eq]
        simp [Stage.Taints, unbroken]
      · simp [Machine.session?, held_eq]
  | replace stage_eq held_eq other_target =>
      obtain ⟨-, last_eq⟩ := custody.session _ (custody.session?_of_held held_eq)
      refine health.release (scenario.backend.release_eq _) rfl ?_ ?_ ?_
      · simp [Machine.session?, stage_eq]
      · simp [stage_eq, Stage.Failing]
      · simp [Machine.Lacks, stage_eq, last_eq, other_target]
  | @discard target attempt call failure session stage_eq held_eq reason =>
      have had := custody.session?_of_held held_eq
      obtain ⟨number_eq, -⟩ := custody.session session had
      have failing := health.failing
      rw [stage_eq] at failing
      refine health.release (.inr rfl) rfl ?_ ?_ ?_
      · simp [Machine.session?, stage_eq]
      · simpa [stage_eq] using failing
      · simp only [Machine.Lacks, stage_eq]
        rcases reason with breaks | cancelled
        · refine .inr (.inr ?_)
          rw [← number_eq, health.sound session had, stage_eq]
          exact (Behavior.breaks_of_error failing).trans breaks
        · exact .inl cancelled
  | letGo waits held_eq => exact health.release (.inr rfl) rfl rfl trivial trivial
  | release stage_eq held_eq =>
      refine health.release (scenario.backend.release_eq _) rfl ?_ ?_ ?_
      · simp [Machine.session?, stage_eq]
      · simp [stage_eq, Stage.Failing]
      · simp [Machine.Lacks, stage_eq]
  | lose held_eq => exact health.release (.inr rfl) rfl rfl trivial trivial
  | leave interrupted =>
      have session_eq := Machine.session?_of_not_opened (not_opened_of_interrupted
        (interrupted.imp_right And.left))
      refine health.of_same (sameSessions_of_quiet trace fun _ => by simp)
        ⟨rfl, rfl, rfl, rfl⟩ session_eq.symm trivial ?_ fun _ _ => trivial
      intro had
      rcases interrupted with idles | ⟨-, held_eq⟩
      · exact iff_of_false idles.not_taints id
      · exact absurd (session_eq.trans held_eq) had
  | keep stage_eq =>
      refine health.of_same (sameSessions_of_quiet trace fun _ => by simp)
        ⟨rfl, rfl, rfl, rfl⟩ ?_ trivial ?_ ?_
      · simp [Machine.session?, stage_eq]
      · simp [Stage.Taints, stage_eq]
      · simp [Machine.session?, stage_eq]
  | seek stage_eq | again stage_eq =>
      refine health.of_same (sameSessions_of_quiet trace fun _ => by simp)
        ⟨rfl, rfl, rfl, rfl⟩ ?_ trivial ?_ ?_
      · simp [Machine.session?, stage_eq]
      · simp [Stage.Taints, stage_eq]
      · intro _ lacks
        rw [Machine.Lacks, stage_eq] at lacks
        exact custody.lacks_for lacks _
  | @hold target attempt tries session stage_eq held_eq target_eq =>
      have had := custody.session?_of_held held_eq
      refine health.of_same (sameSessions_of_quiet trace fun _ => by simp)
        ⟨rfl, rfl, rfl, rfl⟩ ?_ trivial ?_ ?_
      · simp [Machine.session?, stage_eq]
      · simp [Stage.Taints, stage_eq]
      · simp [had]
  | fail stage_eq outcome_eq =>
      refine health.of_same (sameSessions_of_quiet trace fun _ => by simp)
        ⟨rfl, rfl, rfl, rfl⟩ ?_ outcome_eq ?_ ?_
      · simp [Machine.session?, stage_eq]
      · simp [Stage.Taints, stage_eq]
      · intro _ lacks
        rw [Machine.Lacks, stage_eq] at lacks
        exact .inr lacks
  | refuse stage_eq held_eq =>
      have none_had : machine.session? = none := by
        simp [Machine.session?, stage_eq, held_eq]
      refine health.of_same (sameSessions_of_quiet trace fun _ => by simp)
        ⟨rfl, rfl, rfl, rfl⟩ ?_ trivial ?_ ?_
      · simp [Machine.session?, stage_eq]
      · simp [none_had]
      · exact fun _ _ => trivial
  | @retry target attempt call failure delay stage_eq kept quiet delay_eq =>
      have failing := health.failing
      rw [stage_eq] at failing
      have not_cancelled : failure ≠ .cancelled := by
        rintro rfl
        simp [Retry.Policy.retryDelay?_cancelled] at delay_eq
      refine health.of_same (sameSessions_of_quiet trace fun _ => by simp)
        ⟨rfl, rfl, rfl, rfl⟩ ?_ failing ?_ ?_
      · simp [Machine.session?, stage_eq]
      · exact fun had => iff_of_false (health.not_taints stage_eq kept had) id
      · intro _ lacks
        rw [Machine.Lacks, stage_eq] at lacks
        exact lacks.resolve_left not_cancelled
  | report stage_eq not_cancelled kept final =>
      refine health.of_same (sameSessions_of_quiet trace fun _ => by simp)
        ⟨rfl, rfl, rfl, rfl⟩ ?_ trivial ?_ ?_
      · simp [Machine.session?, stage_eq]
      · exact fun had => iff_of_false (health.not_taints stage_eq kept had) id
      · intro _ lacks
        rw [Machine.Lacks, stage_eq] at lacks
        exact lacks.resolve_left not_cancelled
  | _ =>
      refine health.of_same (sameSessions_of_quiet trace fun _ => by simp)
        ⟨rfl, rfl, rfl, rfl⟩ ?_ ?_ ?_ ?_
      · simp_all [Machine.session?]
      · have failing := health.failing
        simp_all [Stage.Failing]
      · simp_all [Stage.Taints, Behavior.breaks]
      · simp_all [Machine.Lacks]

/-- The account of the sessions holds along every path from the start. -/
theorem Path.custody {scenario : Scenario} {trace : List Entry} {machine : Machine}
    (path : Path scenario (.start scenario.script) trace machine) :
    machine.Custody scenario.backend trace ∧ machine.Health scenario.backend trace := by
  induction path with
  | nil =>
      refine ⟨⟨rfl, rfl, rfl, ⟨[], rfl, rfl, fun _ => rfl⟩, rfl, ?_, False.elim⟩,
        ⟨trivial, ?_, ?_, fun _ => .inl rfl⟩⟩
      · exact fun session had => nomatch had
      · exact fun number member => nomatch member
      · exact fun session had => nomatch had
  | snoc _ move induction =>
      exact ⟨move.custody induction.1, move.health induction.1 induction.2⟩

/-- A session that is being opened was asked for with the last entry. -/
theorem Path.opening_origin {scenario : Scenario} {trace : List Entry} {machine : Machine}
    {target : Instance} {attempt tries call : Nat}
    (path : Path scenario (.start scenario.script) trace machine)
    (stage_eq : machine.stage = .opening target attempt tries call) :
    ∃ front, trace = front ++ [.call (.openSession target.batch.connectTarget)] ∧
      (wanted front).length = call := by
  cases path with
  | nil => contradiction
  | @snoc front before label after to_before move =>
      cases move with
      | ask =>
          obtain ⟨rfl, rfl, rfl, rfl⟩ := Stage.opening.inj stage_eq
          exact ⟨front, rfl, to_before.custody.1.wanted_length⟩
      | replace acquiring | discard acquiring | release acquiring =>
          have same : before.stage = _ := stage_eq
          simp [acquiring] at same
      | _ => contradiction

end Engine
end SqlScript
