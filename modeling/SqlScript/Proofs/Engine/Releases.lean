import SqlScript.Proofs.Engine.Compliance

/-!
# How sessions are released

A session that is still good is released as the backend wants it, which closes it if the backend has
a call for that.  It is let go instead only if it broke, or if a request to cancel the run is
noticed while an instance waits for its batch, which covers the time right before the batch is
submitted and the time between two attempts.  A request that is noticed between two instances or
while a session is acquired leaves the session to be released like any other.
-/

namespace SqlScript
namespace Engine

open Trace

/-- A request to cancel the run is noticed behind `front`, before the instance begins or while it is
run.  The session in `dropped` is let go then, and the one in `kept` is still to be released. -/
inductive Withdraws (scenario : Scenario) (front : List Entry) (target : Instance) :
    (dropped kept : Option Session) → Prop
  /-- The instance comes next. -/
  | between {machine : Machine} {rest : List Instance} :
      Path scenario (.start scenario.script) front machine → machine.stage = .between →
        machine.todo = target :: rest → Withdraws scenario front target none machine.held
  /-- A session is acquired. -/
  | idle {machine : Machine} :
      Path scenario (.start scenario.script) front machine →
        machine.stage.Idles scenario.backend target →
          Withdraws scenario front target none machine.held
  /-- The batch is about to be submitted, may be running, or is to be submitted again. -/
  | waiting {machine : Machine} :
      Path scenario (.start scenario.script) front machine →
        machine.stage.Waits scenario.backend target →
          Withdraws scenario front target machine.held none

/-- What a run does with its session when it is cancelled in the instance. -/
def Instance.farewell (target : Instance) (backend : Backend) (dropped kept : Option Session) :
    List Entry :=
  (dropped.map fun session => .call (.discard session.number)).toList ++
    .event (.scriptCancelled target.batch.index) ::
      (kept.map fun session => .call (backend.release session.number)).toList

/-- The run is being cancelled or has been. -/
def Machine.Withdrawn (scenario : Scenario) (trace : List Entry) (machine : Machine) : Prop :=
  match machine.stage with
  | .leaving target =>
      ∃ front dropped, Withdraws scenario front target dropped machine.held ∧
        trace = front ++ (dropped.map fun session => .call (.discard session.number)).toList
  | .ending .cancelled =>
      ∃ front target dropped kept, Withdraws scenario front target dropped kept ∧
        (machine.held = kept ∧ trace = front ++ target.farewell scenario.backend dropped none ∨
          machine.held = none ∧ trace = front ++ target.farewell scenario.backend dropped kept)
  | _ => True

theorem Move.withdrawn {scenario : Scenario} {machine machine' : Machine} {label : Option Entry}
    {trace : List Entry} (move : Move scenario machine label machine')
    (path : Path scenario (.start scenario.script) trace machine)
    (withdrawn : machine.Withdrawn scenario trace) :
    machine'.Withdrawn scenario (trace ++ label.toList) := by
  cases move with
  | skip stage_eq todo_eq =>
      have withdraws := Withdraws.between path stage_eq todo_eq
      exact ⟨trace, none, withdraws, rfl⟩
  | leave interrupted =>
      rcases interrupted with idles | ⟨waits, held_eq⟩
      · have withdraws := Withdraws.idle path idles
        exact ⟨trace, none, withdraws, rfl⟩
      · have withdraws := Withdraws.waiting path waits
        rw [held_eq] at withdraws
        exact ⟨trace, none, by rwa [held_eq], rfl⟩
  | letGo waits held_eq =>
      have withdraws := Withdraws.waiting path waits
      rw [held_eq] at withdraws
      exact ⟨trace, some _, withdraws, rfl⟩
  | cancel stage_eq =>
      rw [Machine.Withdrawn, stage_eq] at withdrawn
      obtain ⟨front, dropped, withdraws, rfl⟩ := withdrawn
      exact ⟨front, _, dropped, machine.held, withdraws, .inl ⟨rfl, by simp [Instance.farewell]⟩⟩
  | @release phase session stage_eq held_eq =>
      rw [Machine.Withdrawn, stage_eq] at withdrawn
      rw [Machine.Withdrawn, stage_eq]
      cases phase with
      | cancelled =>
          obtain ⟨front, target, dropped, kept, withdraws, ⟨rfl, rfl⟩ | ⟨unheld, -⟩⟩ := withdrawn
          · refine ⟨front, target, dropped, machine.held, withdraws, .inr ⟨rfl, ?_⟩⟩
            simp [Instance.farewell, held_eq]
          · simp [held_eq] at unheld
      | _ => trivial
  | replace stage_eq | discard stage_eq =>
      rw [Machine.Withdrawn, stage_eq]
      trivial
  | _ => trivial

theorem Path.withdrawn {scenario : Scenario} {trace : List Entry} {machine : Machine}
    (path : Path scenario (.start scenario.script) trace machine) :
    machine.Withdrawn scenario trace := by
  induction path with
  | nil => trivial
  | snoc before move induction => exact move.withdrawn before induction

/-- The session was let go although it was not known to have broken. -/
def Machine.Parted (scenario : Scenario) (trace : List Entry) (machine : Machine)
    (session : Nat) : Prop :=
  match machine.stage with
  | .leaving target =>
      machine.held = none ∧
        ∃ front held, held.number = session ∧ Withdraws scenario front target (some held) none ∧
          trace = front ++ [.call (.discard session)]
  | .ending phase =>
      phase = .cancelled ∧ machine.held = none ∧
        ∃ front target held, held.number = session ∧
          Withdraws scenario front target (some held) none ∧
            trace = front ++ target.farewell scenario.backend (some held) none
  | .failed _ _ _ failure => failure = .cancelled ∧ machine.held = none
  | .aborted | .lost => True
  | _ => False

/-- A session may have opened unnoticed, because the run was cancelled at a turn before the opening
returned. -/
def Machine.Strays (backend : Backend) (trace : List Entry) (machine : Machine) : Prop :=
  match machine.stage with
  | .opening .. => True
  | .leaving _ =>
      machine.held = none ∧ ∃ front wanted, trace = front ++ [.call (.openSession wanted)] ∧
        (backend.opening (Trace.wanted front).length).turns ≠ []
  | .ending phase =>
      phase = .cancelled ∧ machine.held = none ∧
        ∃ front wanted index,
          trace = front ++ [.call (.openSession wanted), .event (.scriptCancelled index)] ∧
            (backend.opening (Trace.wanted front).length).turns ≠ []
  | _ => False

/-- Sessions are released in the way that befits them, and none opens unnoticed. -/
structure Machine.Tidy (scenario : Scenario) (trace : List Entry) (machine : Machine) : Prop where
  closes : ∀ session, .call (.close session) ∈ trace → scenario.backend.hasClose = true
  discards : ∀ session, .call (.discard session) ∈ trace →
    scenario.backend.hasClose = false ∨ session ∈ broken scenario.backend trace ∨
      machine.Parted scenario trace session
  noticed : (opened scenario.backend trace).length = machine.sessions ∨
    machine.Strays scenario.backend trace

theorem Trace.broken_subset (backend : Backend) (trace more : List Entry) :
    broken backend trace ⊆ broken backend (trace ++ more) := by
  unfold broken executed
  rw [List.filterMap_append, List.zipIdx_append, List.filterMap_append]
  exact List.subset_append_left _ _

/-- A backend that discards the sessions it releases has no call to close them. -/
theorem Backend.release_eq_discard {backend : Backend} {number session : Nat}
    (release_eq : backend.release number = .discard session) : backend.hasClose = false := by
  unfold release at release_eq
  split at release_eq
  · contradiction
  · rename_i no_close
    exact Bool.eq_false_iff.mpr no_close

theorem Backend.release_eq_close {backend : Backend} {number session : Nat}
    (release_eq : backend.release number = .close session) : backend.hasClose = true := by
  unfold release at release_eq
  split at release_eq
  · assumption
  · contradiction

namespace Machine.Tidy

variable {scenario : Scenario} {trace more : List Entry} {machine machine' : Machine}

theorem of_append (tidy : machine.Tidy scenario trace)
    (closes : ∀ session, .call (.close session) ∈ more → scenario.backend.hasClose = true)
    (discards : ∀ session, .call (.discard session) ∈ more →
      scenario.backend.hasClose = false ∨ session ∈ broken scenario.backend (trace ++ more) ∨
        machine'.Parted scenario (trace ++ more) session)
    (parted : ∀ session, machine.Parted scenario trace session →
      machine'.Parted scenario (trace ++ more) session)
    (noticed : (opened scenario.backend (trace ++ more)).length = machine'.sessions ∨
      machine'.Strays scenario.backend (trace ++ more)) :
    machine'.Tidy scenario (trace ++ more) := by
  refine ⟨fun session member => ?_, fun session member => ?_, noticed⟩
  · rcases List.mem_append.mp member with before | now
    · exact tidy.closes session before
    · exact closes session now
  · rcases List.mem_append.mp member with before | now
    · rcases tidy.discards session before with no_close | breaks | was_parted
      · exact .inl no_close
      · exact .inr (.inl (broken_subset scenario.backend trace more breaks))
      · exact .inr (.inr (parted session was_parted))
    · exact discards session now

/-- A session that is released as the backend wants it may be discarded only if it cannot be
closed. -/
theorem release (number : Nat) (tidy : machine.Tidy scenario trace)
    (parted : ∀ session, ¬machine.Parted scenario trace session)
    (noticed : (opened scenario.backend
      (trace ++ [.call (scenario.backend.release number)])).length = machine'.sessions) :
    machine'.Tidy scenario (trace ++ [.call (scenario.backend.release number)]) := by
  refine tidy.of_append ?_ ?_ ?_ (.inl noticed)
  · intro session member
    simp only [List.mem_singleton, Entry.call.injEq] at member
    exact Backend.release_eq_close member.symm
  · intro session member
    simp only [List.mem_singleton, Entry.call.injEq] at member
    exact .inl (Backend.release_eq_discard member.symm)
  · exact fun session was_parted => absurd was_parted (parted session)

end Machine.Tidy

/-- Where every session is counted that has opened. -/
theorem Machine.Custody.opened_length {backend : Backend} {trace : List Entry} {machine : Machine}
    (custody : machine.Custody backend trace)
    (counted : ∀ pending, machine.stage.Pending backend pending → pending = []) :
    (opened backend trace).length = machine.sessions := by
  obtain ⟨pending, opened_eq, pends, -⟩ := custody.opened_eq
  rw [opened_eq, counted pending pends, List.append_nil, custody.landed_length]

theorem Machine.Custody.opened_length_of_held {backend : Backend} {trace : List Entry}
    {machine : Machine} {session : Session} (custody : machine.Custody backend trace)
    (held_eq : machine.held = some session) :
    (opened backend trace).length = machine.sessions := by
  obtain ⟨pending, opened_eq, -, none_pending⟩ := custody.opened_eq
  obtain rfl := none_pending (by simp [custody.session?_of_held held_eq])
  rw [opened_eq, List.append_nil, custody.landed_length]

theorem Trace.opened_concat_release (backend : Backend) (trace : List Entry) {call : Call}
    {session : Nat} (call_eq : call = .close session ∨ call = .discard session) :
    opened backend (trace ++ [.call call]) = opened backend trace := by
  rcases call_eq with rfl | rfl <;> simp [opened, wanted]

namespace Machine

variable {scenario : Scenario} {backend : Backend} {trace : List Entry} {machine : Machine}
  {target : Instance}

theorem not_parted_of_interrupted (session : Nat)
    (interrupted : machine.stage.Idles backend target ∨ machine.stage.Waits backend target) :
    ¬machine.Parted scenario trace session := by
  rw [Parted]
  generalize machine.stage = stage at interrupted
  rcases interrupted with idles | waits
  · cases idles <;> exact id
  · cases waits <;> exact id

theorem not_strays_of_waits (waits : machine.stage.Waits backend target) :
    ¬machine.Strays backend trace := by
  rw [Strays]
  generalize machine.stage = stage at waits
  cases waits <;> exact id

/-- Where the run is cancelled before the batch is submitted, a session may be opening, unless the
opening has failed. -/
theorem Tidy.leave {machine' : Machine} (tidy : machine.Tidy scenario trace)
    (path : Path scenario (.start scenario.script) trace machine)
    (idles : machine.stage.Idles scenario.backend target)
    (held_eq : machine'.held = machine.held) (sessions_eq : machine'.sessions = machine.sessions)
    (stage_eq : machine'.stage = .leaving target) :
    (opened scenario.backend trace).length = machine'.sessions ∨
      machine'.Strays scenario.backend trace := by
  have custody := path.custody.1
  have noticed := tidy.noticed
  have unheld := custody.unheld
  have counted := custody.opened_length
  have asked {attempt tries call : Nat}
      (opening : machine.stage = .opening target attempt tries call) := path.opening_origin opening
  rw [Strays] at noticed ⊢
  rw [stage_eq, held_eq, sessions_eq]
  generalize machine.stage = stage at idles noticed unheld counted asked
  cases idles with
  | acquiring => exact .inl (noticed.resolve_right id)
  | opening turns =>
      obtain ⟨front, trace_eq, rfl⟩ := asked rfl
      exact .inr ⟨unheld trivial, front, _, trace_eq, turns⟩
  | refused outcome_eq =>
      refine .inl (counted fun pending pends => ?_)
      simpa [Stage.Pending, Behavior.succeeds, outcome_eq] using pends

end Machine

theorem Move.tidy {scenario : Scenario} {machine machine' : Machine} {label : Option Entry}
    {trace : List Entry} (move : Move scenario machine label machine')
    (path : Path scenario (.start scenario.script) trace machine)
    (tidy : machine.Tidy scenario trace) :
    machine'.Tidy scenario (trace ++ label.toList) := by
  obtain ⟨custody, health⟩ := path.custody
  have custody' := move.custody custody
  cases move with
  | replace stage_eq held_eq other_target =>
      refine tidy.release _ (by simp [Machine.Parted, stage_eq]) ?_
      rw [opened_concat_release _ _ (scenario.backend.release_eq _)]
      exact custody.opened_length_of_held held_eq
  | release stage_eq held_eq =>
      refine tidy.release _ (by simp [Machine.Parted, stage_eq, held_eq]) ?_
      rw [opened_concat_release _ _ (scenario.backend.release_eq _)]
      exact custody.opened_length_of_held held_eq
  | @discard target attempt call failure session stage_eq held_eq reason =>
      have had := custody.session?_of_held held_eq
      have failing := health.failing
      rw [stage_eq] at failing
      refine tidy.of_append (by simp) ?_ (by simp [Machine.Parted, stage_eq, held_eq]) (.inl ?_)
      · intro number member
        obtain rfl : number = session.number := by simpa using member
        rcases reason with breaks | cancelled
        · refine .inr (.inl (broken_subset _ _ _ ((health.sound session had).mpr ?_)))
          rw [stage_eq]
          exact (Behavior.breaks_of_error failing).trans breaks
        · exact .inr (.inr (by simp [Machine.Parted, stage_eq, cancelled]))
      · exact custody'.opened_length (by simp [Stage.Pending, stage_eq])
  | @letGo target session waits held_eq =>
      refine tidy.of_append (by simp) ?_ ?_ (.inl ?_)
      · intro number member
        obtain rfl : number = session.number := by simpa using member
        have withdraws := Withdraws.waiting path waits
        rw [held_eq] at withdraws
        exact .inr (.inr ⟨rfl, trace, session, rfl, withdraws, rfl⟩)
      · exact fun number was_parted =>
          absurd was_parted (Machine.not_parted_of_interrupted number (.inr waits))
      · rw [Option.toList_some, opened_concat_release _ _ (.inr rfl)]
        exact custody.opened_length_of_held held_eq
  | @lose session held_eq =>
      refine tidy.of_append (by simp) ?_ (fun _ _ => trivial) (.inl ?_)
      · exact fun number member => .inr (.inr trivial)
      · rw [Option.toList_some, opened_concat_release _ _ (.inr rfl)]
        exact custody.opened_length_of_held held_eq
  | @cancel target stage_eq =>
      have same : SameSessions trace
          (trace ++ (some (Entry.event (.scriptCancelled target.batch.index))).toList) :=
        sameSessions_of_quiet trace fun _ => by simp
      refine tidy.of_append (by simp) (by simp) ?_ ?_
      · intro session was_parted
        rw [Machine.Parted, stage_eq] at was_parted
        obtain ⟨held_eq, front, held, rfl, withdraws, rfl⟩ := was_parted
        refine ⟨rfl, held_eq, front, target, held, rfl, withdraws, ?_⟩
        simp [Instance.farewell]
      · rcases tidy.noticed with counted | strays
        · exact .inl (same.opened_eq ▸ counted)
        · rw [Machine.Strays, stage_eq] at strays
          obtain ⟨held_eq, front, wanted, rfl, turns⟩ := strays
          exact .inr ⟨rfl, held_eq, front, wanted, target.batch.index, by simp, turns⟩
  | @leave target interrupted =>
      refine tidy.of_append (by simp) (by simp) ?_ ?_
      · exact fun number was_parted => absurd was_parted
          (Machine.not_parted_of_interrupted number (interrupted.imp_right And.left))
      · rw [Option.toList_none, List.append_nil]
        rcases interrupted with idles | ⟨waits, -⟩
        · exact tidy.leave path idles rfl rfl rfl
        · exact .inl (tidy.noticed.resolve_right (Machine.not_strays_of_waits waits))
  | report stage_eq not_cancelled =>
      refine tidy.of_append (by simp) (by simp) ?_ ?_
      · intro session was_parted
        rw [Machine.Parted, stage_eq] at was_parted
        exact absurd was_parted.1 not_cancelled
      · exact .inl (custody'.opened_length (by simp [Stage.Pending]))
  | @retry target attempt call failure delay stage_eq kept quiet delay_eq =>
      refine tidy.of_append (by simp) (by simp) ?_ ?_
      · intro session was_parted
        rw [Machine.Parted, stage_eq] at was_parted
        obtain ⟨rfl, -⟩ := was_parted
        simp [Retry.Policy.retryDelay?_cancelled] at delay_eq
      · exact .inl (custody'.opened_length (by simp [Stage.Pending]))
  | ask stage_eq =>
      refine tidy.of_append (by simp) (by simp) ?_ (.inr trivial)
      simp [Machine.Parted, stage_eq]
  | halt stage_eq | skip stage_eq | wind stage_eq | conclude stage_eq =>
      refine tidy.of_append ?_ ?_ ?_ ?_
      · simp
      · simp
      · simp_all [Machine.Parted]
      · have noticed := tidy.noticed
        rw [Machine.Strays, stage_eq] at noticed
        rw [(sameSessions_of_quiet trace fun _ => by simp).opened_eq]
        exact .inl (noticed.resolve_right (by simp))
  | _ =>
      refine tidy.of_append ?_ ?_ ?_ ?_
      · simp
      · simp
      · simp_all [Machine.Parted]
      · exact .inl (custody'.opened_length (by simp [Stage.Pending]))

theorem Path.tidy {scenario : Scenario} {trace : List Entry} {machine : Machine}
    (path : Path scenario (.start scenario.script) trace machine) :
    machine.Tidy scenario trace := by
  induction path with
  | nil =>
      refine ⟨?_, ?_, .inl rfl⟩
      · exact fun _ member => nomatch member
      · exact fun _ member => nomatch member
  | snoc before move induction => exact move.tidy before induction

theorem Trace.mem_released {trace : List Entry} {session : Nat} :
    session ∈ released trace ↔
      .call (.close session) ∈ trace ∨ .call (.discard session) ∈ trace := by
  unfold released
  rw [List.mem_filterMap]
  constructor
  · rintro ⟨entry, member, session_eq⟩
    split at session_eq
    · exact .inl (Option.some.inj session_eq ▸ member)
    · exact .inr (Option.some.inj session_eq ▸ member)
    · contradiction
  · rintro (closed | discarded)
    · exact ⟨_, closed, rfl⟩
    · exact ⟨_, discarded, rfl⟩

/-- A session that was released was released as the backend wants it, or let go for a reason. -/
theorem Machine.Tidy.released_well {scenario : Scenario} {trace : List Entry} {machine : Machine}
    {session : Nat} (tidy : machine.Tidy scenario trace) (member : session ∈ released trace) :
    .call (scenario.backend.release session) ∈ trace ∨
      .call (.discard session) ∈ trace ∧
        (session ∈ broken scenario.backend trace ∨ machine.Parted scenario trace session) := by
  rcases mem_released.mp member with closed | discarded
  · refine .inl ?_
    rwa [Backend.release, if_pos (tidy.closes session closed)]
  · rcases tidy.discards session discarded with no_close | reason
    · refine .inl ?_
      rwa [Backend.release, if_neg (Bool.eq_false_iff.mp no_close)]
    · exact .inr ⟨discarded, reason⟩

namespace Machine.Finished

variable {scenario : Scenario} {backend : Backend} {trace : List Entry} {machine : Machine}
  {summary : Summary}

theorem session?_eq (finished : machine.Finished summary) : machine.session? = none := by
  obtain ⟨held_eq, stage_eq⟩ := finished
  rw [Machine.session?_of_not_opened, held_eq]
  rintro target attempt tries session opened_eq
  rcases stage_eq with ⟨stage_eq, -⟩ | ⟨stage_eq, -⟩ <;> simp [stage_eq] at opened_eq

theorem strays (finished : machine.Finished summary) (strays : machine.Strays backend trace) :
    summary.phase = .cancelled ∧ ∃ front wanted index,
      trace = front ++ [.call (.openSession wanted), .event (.scriptCancelled index)] ∧
        (backend.opening (Trace.wanted front).length).turns ≠ [] := by
  rw [Machine.Strays] at strays
  rcases finished.2 with ⟨stage_eq, -⟩ | ⟨stage_eq, -⟩
  · rw [stage_eq] at strays
    exact strays.elim
  · rw [stage_eq] at strays
    exact ⟨strays.1, strays.2.2⟩

theorem parted {session : Nat} (finished : machine.Finished summary)
    (parted : machine.Parted scenario trace session) :
    summary.phase = .cancelled ∧ ∃ front target held, held.number = session ∧
      Withdraws scenario front target (some held) none ∧
        trace = front ++ target.farewell scenario.backend (some held) none := by
  rw [Machine.Parted] at parted
  rcases finished.2 with ⟨stage_eq, -⟩ | ⟨stage_eq, -⟩
  · rw [stage_eq] at parted
    exact parted.elim
  · rw [stage_eq] at parted
    exact ⟨parted.1, parted.2.2⟩

theorem withdrawn (finished : machine.Finished summary) (cancelled : summary.phase = .cancelled)
    (withdrawn : machine.Withdrawn scenario trace) :
    ∃ front target dropped kept, Withdraws scenario front target dropped kept ∧
      trace = front ++ target.farewell scenario.backend dropped kept := by
  obtain ⟨held_eq, ⟨-, completed⟩ | ⟨stage_eq, -⟩⟩ := finished
  · rw [cancelled] at completed
    contradiction
  · rw [Machine.Withdrawn, stage_eq, cancelled] at withdrawn
    obtain ⟨front, target, dropped, kept, withdraws, ⟨rfl, trace_eq⟩ | ⟨-, trace_eq⟩⟩ := withdrawn
    · rw [held_eq] at withdraws
      exact ⟨front, target, dropped, none, withdraws, trace_eq⟩
    · exact ⟨front, target, dropped, kept, withdraws, trace_eq⟩

end Machine.Finished

/-- The run was asked to be cancelled, noticed that behind `front`, and ended.  A session that it
let go then was that of an instance that had begun before it was asked. -/
structure Retreats (scenario : Scenario) (audience : Audience) (trace front : List Entry)
    (target : Instance) (dropped kept : Option Session) : Prop where
  known : target ∈ scenario.script.instances
  trace_eq : trace = front ++ target.farewell scenario.backend dropped kept
  withdraws : Withdraws scenario front target dropped kept
  petitioned : Petitioned scenario.backend audience front
  underway : dropped ≠ none → ∃ before since, Underway front before target since ∧
    ¬Requested scenario.backend audience before

/-- A run that says that it is cancelled was asked to be, and retreats. -/
theorem Withdraws.retreats {scenario : Scenario} {audience : Audience} {trace front : List Entry}
    {target : Instance} {dropped kept : Option Session}
    (withdraws : Withdraws scenario front target dropped kept)
    (trace_eq : trace = front ++ target.farewell scenario.backend dropped kept)
    (obeys : Obeys scenario.backend audience trace) :
    Retreats scenario audience trace front target dropped kept where
  known := by
    cases withdraws with
    | between path stage_eq todo_eq =>
        have known := path.knows.todo
        exact known.subset (by simp [todo_eq])
    | idle path idles => exact path.knows.here target idles.target?_eq
    | waiting path waits => exact path.knows.here target waits.target?_eq
  trace_eq := trace_eq
  withdraws := withdraws
  petitioned := by
    rw [trace_eq, Instance.farewell, ← List.append_assoc] at obeys
    have petitioned := obeys.cancels _ _ _ rfl rfl
    cases dropped with
    | none => rwa [Option.map_none, Option.toList_none, List.append_nil] at petitioned
    | some session => exact petitioned.of_discard
  underway has_dropped := by
    cases withdraws with
    | between | idle => exact absurd rfl has_dropped
    | waiting path waits =>
        have follows := path.befits.follows (.inr waits)
        obtain ⟨before, since, underway⟩ := follows.underway waits.target?_eq
        refine ⟨before, since, underway, ?_⟩
        rw [trace_eq, underway.trace_eq] at obeys
        exact obeys.front.begins _ _ _ rfl rfl

/-- A run that ends with a summary has released every session exactly once, in the order in which
they opened; only an opening that was abandoned at one of its turns may have left one behind.  A
session is let go instead of being released as the backend wants it only if it broke, or if a
request to cancel the run is noticed while an instance waits for its batch.  Noticed elsewhere, the
request leaves the session to be released at the end. -/
theorem releases_of_run {policy : Retry.Policy} {backend : Backend} {script : Script}
    {audience : Audience} {summary : Summary}
    (finished : (run policy backend script audience).result = .ok summary) :
    let scenario : Scenario := { policy, backend, script }
    let trace := (run policy backend script audience).trace
    (∃ count, released trace = List.range' 1 count ∧
      ((opened backend trace).length = count ∨
        (opened backend trace).length = count + 1 ∧ summary.phase = .cancelled ∧
          ∃ front wanted index,
            trace = front ++ [.call (.openSession wanted), .event (.scriptCancelled index)] ∧
              (backend.opening (Trace.wanted front).length).turns ≠ [])) ∧
    (∀ session ∈ released trace,
      .call (backend.release session) ∈ trace ∨
        .call (.discard session) ∈ trace ∧
          (session ∈ broken backend trace ∨
            summary.phase = .cancelled ∧ ∃ front target held, held.number = session ∧
              Retreats scenario audience trace front target (some held) none)) ∧
    (summary.phase = .cancelled →
      ∃ front target dropped kept,
        Retreats scenario audience trace front target dropped kept) := by
  intro scenario trace
  obtain ⟨machine, path, ends⟩ := path_of_run policy backend script audience
  rw [finished] at ends
  have finished : machine.Finished summary := ends
  have custody := path.custody.1
  have tidy := path.tidy
  have obeys : Obeys backend audience trace := (sound_of_run policy backend script audience).obeys
  refine ⟨⟨machine.sessions, ?_, ?_⟩, fun session member => ?_, fun cancelled => ?_⟩
  · have released_eq := custody.released_eq
    rwa [finished.session?_eq, Option.map_none, Option.toList_none, List.append_nil]
      at released_eq
  · rcases tidy.noticed with counted | strays
    · exact .inl counted
    · obtain ⟨pending, opened_eq, pends, -⟩ := custody.opened_eq
      have length_eq := congrArg List.length opened_eq
      rw [List.length_append, custody.landed_length] at length_eq
      rcases Nat.le_one_iff_eq_zero_or_eq_one.mp pends.length_le with none | one
      · exact .inl (by rw [length_eq, none, Nat.add_zero])
      · exact .inr ⟨by rw [length_eq, one], finished.strays strays⟩
  · refine (tidy.released_well member).imp_right (And.imp_right (Or.imp_right fun parted => ?_))
    obtain ⟨cancelled, front, target, held, number_eq, withdraws, trace_eq⟩ :=
      finished.parted parted
    exact ⟨cancelled, front, target, held, number_eq, withdraws.retreats trace_eq obeys⟩
  · obtain ⟨front, target, dropped, kept, withdraws, trace_eq⟩ :=
      finished.withdrawn cancelled path.withdrawn
    exact ⟨front, target, dropped, kept, withdraws.retreats trace_eq obeys⟩

theorem releases_of_prompt_run :
    let backend := Backend.ofLists [] [] []
    let script : Script :=
      { batches := #[{ (default : Batch) with text := "SELECT 1", repeatCount := 2 }]
        trailingMessages := []
        outputTargets := {} }
    let outcome := run .noRetry backend script {}
    ∃ summary, outcome.result = .ok summary ∧ summary.phase = .completed ∧
      released outcome.trace = [1] ∧ .call (.close 1) ∈ outcome.trace := by
  intro backend script outcome
  have completed : outcome.result.toOption.map Summary.phase = some .completed := by
    decide +kernel
  cases result_eq : outcome.result with
  | error stop => simp [result_eq, Except.toOption] at completed
  | ok summary =>
      have phase_eq : summary.phase = .completed := by
        simpa [result_eq, Except.toOption] using completed
      obtain ⟨-, released_well, -⟩ := releases_of_run result_eq
      have none_broken : broken backend outcome.trace = [] := by
        decide +kernel
      have released_eq : released outcome.trace = [1] := by
        decide +kernel
      refine ⟨summary, rfl, phase_eq, released_eq, ?_⟩
      have member : 1 ∈ released outcome.trace := by
        simp [released_eq]
      rcases released_well 1 member with closed | ⟨-, breaks | ⟨cancelled, -⟩⟩
      · exact closed
      · change 1 ∈ broken backend outcome.trace at breaks
        simp [none_broken] at breaks
      · simp [phase_eq] at cancelled

/-- A request that a call makes is noticed behind the instance, and the session is closed. -/
example :
    let batch : Batch := { (default : Batch) with text := "a", repeatCount := 2 }
    let script : Script := { batches := #[batch], trailingMessages := [], outputTargets := {} }
    let backend := Backend.ofLists [] [.cancel Backend.prompt] []
    (run .usual backend script {}).calls = [.openSession none, .execute 1 "a", .close 1] := by
  decide +kernel

/-- A run that is cancelled while a session opens, or between two attempts, lets a session go that
is good and runs nothing. -/
theorem discards_of_early_cancellation :
    let script : Script :=
      { batches := #[{ (default : Batch) with text := "a", repeatCount := 1 }]
        trailingMessages := []
        outputTargets := {} }
    let deadlock : SessionError := .server { number := 1205, severity := 13, message := "deadlock" }
    let opening := Backend.ofLists [.cancel Backend.prompt] [] []
    let pausing := Backend.ofLists [] [.cancel (.finish (.error deadlock))] []
    ((run .usual opening script {}).result.toOption.map Summary.phase = some .cancelled ∧
      (run .usual opening script {}).calls = [.openSession none, .discard 1] ∧
      broken opening (run .usual opening script {}).trace = []) ∧
    ((run .usual pausing script {}).result.toOption.map Summary.phase = some .cancelled ∧
      (run .usual pausing script {}).calls = [.openSession none, .execute 1 "a", .discard 1] ∧
      broken pausing (run .usual pausing script {}).trace = []) := by
  decide +kernel

end Engine
end SqlScript
