import SqlScript.Proofs.Engine.Attempts
import SqlScript.Proofs.Engine.Releases

/-!
# Session discipline

Batches are run on the session that was opened last, for their own target, and only while it is
good.  A new session is opened only where there is none to go on with, and only when all sessions
before it have been released.
-/

namespace SqlScript
namespace Engine

open Trace

variable {backend : Backend} {scenario : Scenario} {trace : List Entry} {machine : Machine}

/-- The session that was opened last is held, is good, and was opened for the instance. -/
structure Serves (backend : Backend) (trace : List Entry) (target : Instance) (session : Nat) :
    Prop where
  last : session = (opened backend trace).length
  target_eq : (opened backend trace).getLast? = some target.batch.connectTarget
  unreleased : session ∉ released trace
  unbroken : session ∉ broken backend trace

/-- No session is held, and the last one, if it was opened for the instance, broke. -/
structure Misses (backend : Backend) (trace : List Entry) (target : Instance) : Prop where
  all_released : released trace = List.range' 1 (opened backend trace).length
  released_well : ∀ session ∈ released trace,
    .call (backend.release session) ∈ trace ∨ session ∈ broken backend trace
  last_broken : (opened backend trace).getLast? = some target.batch.connectTarget →
    (opened backend trace).length ∈ broken backend trace

theorem Machine.Custody.opened_eq_landed (custody : machine.Custody backend trace)
    (counted : (opened backend trace).length = machine.sessions) :
    opened backend trace = machine.landed := by
  obtain ⟨pending, opened_eq, -, -⟩ := custody.opened_eq
  have length_eq := congrArg List.length opened_eq
  rw [counted, List.length_append, custody.landed_length] at length_eq
  obtain rfl : pending = [] := List.length_eq_zero_iff.mp (by omega)
  rw [opened_eq, List.append_nil]

/-- A session that is held is not among those released. -/
theorem Machine.Custody.not_released {session : Session} (custody : machine.Custody backend trace)
    (had : machine.session? = some session) : session.number ∉ released trace := by
  have released_eq := custody.released_eq
  rw [had] at released_eq
  have distinct : (released trace ++ [session.number]).Nodup :=
    released_eq ▸ List.nodup_range'
  exact fun member =>
    (List.nodup_append.mp distinct).2.2 _ member _ (List.mem_singleton_self _) rfl

/-- Once an instance is about to be submitted, the session that is held serves it. -/
theorem Path.serves (path : Path scenario (.start scenario.script) trace machine)
    {target : Instance} {attempt : Nat} {session : Session}
    (stage_eq : machine.stage = .holding target attempt) (held_eq : machine.held = some session)
    (target_eq : session.target = target.batch.connectTarget) :
    Serves scenario.backend trace target session.number := by
  obtain ⟨custody, health⟩ := path.custody
  have had := custody.session?_of_held held_eq
  obtain ⟨number_eq, last_eq⟩ := custody.session session had
  have counted := custody.opened_length_of_held held_eq
  refine ⟨number_eq.trans counted.symm, ?_, custody.not_released had, ?_⟩
  · rw [custody.opened_eq_landed counted, last_eq, target_eq]
  · rw [health.sound session had, stage_eq]
    exact id

/-- Where a session is opened, none serves the instance. -/
theorem Path.misses (path : Path scenario (.start scenario.script) trace machine)
    {target : Instance} {attempt tries : Nat}
    (stage_eq : machine.stage = .acquiring target attempt tries) (held_eq : machine.held = none) :
    Misses scenario.backend trace target := by
  obtain ⟨custody, health⟩ := path.custody
  have none_had : machine.session? = none := by
    rw [Machine.session?, stage_eq, held_eq]
  have counted : (opened scenario.backend trace).length = machine.sessions :=
    custody.opened_length (by simp [Stage.Pending, stage_eq])
  refine ⟨?_, fun session member => ?_, fun last => ?_⟩
  · have released_eq := custody.released_eq
    rw [none_had, Option.map_none, Option.toList_none, List.append_nil] at released_eq
    rw [released_eq, counted]
  · refine (path.tidy.released_well member).imp_right fun discarded => ?_
    have reason := discarded.2
    rw [Machine.Parted, stage_eq] at reason
    exact reason.resolve_right id
  · have lacks := health.lacks none_had
    rw [Machine.Lacks, stage_eq] at lacks
    rw [counted]
    exact lacks (custody.opened_eq_landed counted ▸ last)

/-- At any time at most one session has opened that is not yet released. -/
theorem Path.opened_le (path : Path scenario (.start scenario.script) trace machine) :
    (opened scenario.backend trace).length ≤ (released trace).length + 1 := by
  obtain ⟨custody, -⟩ := path.custody
  obtain ⟨pending, opened_eq, pends, none_pending⟩ := custody.opened_eq
  have released_length := congrArg List.length custody.released_eq
  rw [List.length_append, List.length_range'] at released_length
  rw [opened_eq, List.length_append, custody.landed_length, ← released_length]
  cases had : machine.session? with
  | none =>
      have pending_le := pends.length_le
      simpa using pending_le
  | some session =>
      obtain rfl := none_pending (by simp [had])
      simp

/-- A path can be cut everywhere. -/
theorem Path.front {initial : Machine} {front back : List Entry}
    (path : Path scenario initial trace machine) (trace_eq : trace = front ++ back) :
    ∃ before, Path scenario initial front before := by
  cases back with
  | nil =>
      rw [List.append_nil] at trace_eq
      exact ⟨machine, trace_eq ▸ path⟩
  | cons entry rest =>
      obtain ⟨before, -, to_before, -, -⟩ := path.split trace_eq
      exact ⟨before, to_before⟩

/-- Every batch of a run is run on a good session that was opened for its target; a session is
opened only where there is none to go on with, at most one is open at a time, and there always is
one once it has been acquired. -/
theorem sessions_of_run (policy : Retry.Policy) (backend : Backend) (script : Script)
    (audience : Audience) :
    let outcome := run policy backend script audience
    (∀ front session text back, outcome.trace = front ++ .call (.execute session text) :: back →
      ∃ target ∈ script.instances, (∃ before since, Underway front before target since) ∧
        text = target.batch.text ∧ Serves backend front target session) ∧
    (∀ front wanted back, outcome.trace = front ++ .call (.openSession wanted) :: back →
      ∃ target ∈ script.instances, (∃ before since, Underway front before target since) ∧
        wanted = target.batch.connectTarget ∧ Misses backend front target) ∧
    (∀ front back, outcome.trace = front ++ back →
      (opened backend front).length ≤ (released front).length + 1) ∧
    ∀ batch span phase, outcome.result ≠
      .error (.failed (.internal "no open session after acquisition" batch span phase)) := by
  intro outcome
  obtain ⟨machine, path, ends⟩ := path_of_run policy backend script audience
  refine ⟨?_, ?_, ?_, ?_⟩
  · intro front session text back trace_eq
    obtain ⟨before, after, to_before, move, -⟩ := path.split trace_eq
    obtain ⟨target, attempt, held, stage_eq, -, held_eq, rfl, target_eq, rfl⟩ :=
      move.execute_origin
    have known := to_before.knows.here target (by rw [stage_eq]; rfl)
    have befits := to_before.befits
    rw [stage_eq] at befits
    have underway := Stage.Follows.underway befits rfl
    exact ⟨target, known, underway, rfl, to_before.serves stage_eq held_eq target_eq⟩
  · intro front wanted back trace_eq
    obtain ⟨before, after, to_before, move, -⟩ := path.split trace_eq
    obtain ⟨target, attempt, tries, stage_eq, -, held_eq, -, rfl⟩ := move.open_origin
    have known := to_before.knows.here target (by rw [stage_eq]; rfl)
    have befits := to_before.befits
    rw [stage_eq] at befits
    have underway := Stage.Follows.underway befits rfl
    exact ⟨target, known, underway, rfl, to_before.misses stage_eq held_eq⟩
  · intro front back trace_eq
    obtain ⟨before, to_before⟩ := path.front trace_eq
    exact to_before.opened_le
  · intro batch span phase failed
    rw [show (run policy backend script audience).result = _ from failed] at ends
    obtain ⟨-, -, message_eq⟩ := ends
    simp at message_eq

end Engine
end SqlScript
