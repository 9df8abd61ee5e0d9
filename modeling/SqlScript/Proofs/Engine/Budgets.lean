import Mathlib.Data.List.DropRight
import SqlScript.Proofs.Engine.Sessions

/-!
# Budgets of a run

A policy limits how often a batch is submitted and how often a session is to be opened for it.  Both
limits are counted anew: submissions from the beginning of an instance on, and openings from the
last submission on.  What was spent before does not count.
-/

namespace SqlScript
namespace Engine

/-- The entry costs nothing: no session is to be opened, and neither an instance nor a call begins
or is completed. -/
def Entry.isFree : Entry → Bool
  | .call (.openSession _) | .call (.execute _ _) => false
  | .event (.batchStarted ..) | .event (.batchCompleted ..) => false
  | _ => true

namespace Trace

/-- How many times a batch was submitted since the last instance began or was completed. -/
def attempts (trace : List Entry) : Nat :=
  (executed (trace.rtakeWhile fun entry => !entry.borders)).length

/-- How many times a session was to be opened since the last instance began or was completed. -/
def openings (trace : List Entry) : Nat :=
  (wanted (trace.rtakeWhile fun entry => !entry.borders)).length

/-- How many times a session was to be opened since an instance began or a batch was submitted. -/
def tries (trace : List Entry) : Nat :=
  (wanted (trace.rtakeWhile fun entry => !entry.begins)).length

variable {trace more : List Entry} {entry : Entry}

theorem wanted_append (trace trace' : List Entry) :
    wanted (trace ++ trace') = wanted trace ++ wanted trace' :=
  List.filterMap_append

theorem rtakeWhile_append {keeps : Entry → Bool} (kept : ∀ entry ∈ more, keeps entry = true)
    (trace : List Entry) :
    (trace ++ more).rtakeWhile keeps = trace.rtakeWhile keeps ++ more := by
  have all_kept : ∀ entry ∈ more.reverse, keeps entry = true := by simpa using kept
  rw [List.rtakeWhile, List.reverse_append, List.takeWhile_append_of_pos all_kept,
    List.reverse_append, List.reverse_reverse, List.rtakeWhile]

theorem attempts_append (inside : ∀ entry ∈ more, entry.borders = false) :
    attempts (trace ++ more) = attempts trace + (executed more).length := by
  rw [attempts, rtakeWhile_append (by simpa using inside), executed_append, List.length_append,
    attempts]

theorem openings_append (inside : ∀ entry ∈ more, entry.borders = false) :
    openings (trace ++ more) = openings trace + (wanted more).length := by
  rw [openings, rtakeWhile_append (by simpa using inside), wanted_append, List.length_append,
    openings]

theorem tries_append (inside : ∀ entry ∈ more, entry.begins = false) :
    tries (trace ++ more) = tries trace + (wanted more).length := by
  rw [tries, rtakeWhile_append (by simpa using inside), wanted_append, List.length_append, tries]

theorem attempts_of_border (borders : entry.borders = true) : attempts (trace ++ [entry]) = 0 := by
  rw [attempts, List.rtakeWhile_concat_neg _ _ _ (by simp [borders])]
  rfl

theorem openings_of_border (borders : entry.borders = true) : openings (trace ++ [entry]) = 0 := by
  rw [openings, List.rtakeWhile_concat_neg _ _ _ (by simp [borders])]
  rfl

theorem tries_of_begins (begins : entry.begins = true) : tries (trace ++ [entry]) = 0 := by
  rw [tries, List.rtakeWhile_concat_neg _ _ _ (by simp [begins])]
  rfl

/-- What was spent by the end of a trace. -/
structure Spent where
  attempts : Nat := 0
  openings : Nat := 0
  tries : Nat := 0

/-- What was spent by the end of the trace. -/
def spent (trace : List Entry) : Spent where
  attempts := attempts trace
  openings := openings trace
  tries := tries trace

theorem spent_of_free {label : Option Entry} (free : ∀ entry ∈ label, entry.isFree = true) :
    spent (trace ++ label.toList) = spent trace := by
  cases label with
  | none => rw [Option.toList_none, List.append_nil]
  | some entry =>
      have is_free := free entry rfl
      have inside : entry.borders = false ∧ entry.begins = false ∧ executed [entry] = [] ∧
          wanted [entry] = [] := by
        rcases entry with call | event
        · cases call <;> first | contradiction | exact ⟨rfl, rfl, rfl, rfl⟩
        · cases event <;> first | contradiction | exact ⟨rfl, rfl, rfl, rfl⟩
      obtain ⟨no_border, not_begins, none_executed, none_wanted⟩ := inside
      rw [Option.toList_some, spent, attempts_append (by simpa using no_border),
        openings_append (by simpa using no_border), tries_append (by simpa using not_begins),
        none_executed, none_wanted]
      rfl

theorem spent_of_started (target : Instance) :
    spent (trace ++ [.event target.started]) = {} := by
  rw [spent, attempts_of_border rfl, openings_of_border rfl, tries_of_begins rfl]

theorem spent_of_completed (index repetition : Nat) (result : BatchResult) :
    spent (trace ++ [.event (.batchCompleted index repetition result)]) =
      { tries := (spent trace).tries } := by
  rw [spent, attempts_of_border rfl, openings_of_border rfl, tries_append (by simp [Entry.begins])]
  rfl

theorem spent_of_open (target : Option String) :
    spent (trace ++ [.call (.openSession target)]) =
      { spent trace with
        openings := (spent trace).openings + 1
        tries := (spent trace).tries + 1 } := by
  rw [spent, attempts_append (by simp [Entry.borders]), openings_append (by simp [Entry.borders]),
    tries_append (by simp [Entry.begins])]
  rfl

theorem spent_of_execute (session : Nat) (text : String) :
    spent (trace ++ [.call (.execute session text)]) =
      { spent trace with attempts := (spent trace).attempts + 1, tries := 0 } := by
  rw [spent, attempts_append (by simp [Entry.borders]), openings_append (by simp [Entry.borders]),
    tries_of_begins rfl]
  rfl

end Trace

open Trace

/-- What was spent is what the stage says. -/
def Stage.Spends (limit : Nat) (spent : Spent) : Stage → Prop
  | greeting .. => spent.attempts = 0 ∧ spent.tries = 0
  | acquiring _ attempt tried | opening _ attempt tried _ | opened _ attempt tried _ =>
      spent.attempts + 1 = attempt ∧ spent.attempts ≤ limit ∧ spent.tries = tried
  | holding _ attempt => spent.attempts + 1 = attempt ∧ spent.attempts ≤ limit
  | awaiting _ attempt _ _ | failed _ attempt _ _ => spent.attempts = attempt ∧ spent.tries = 0
  | pausing _ attempt _ _ =>
      spent.attempts = attempt ∧ spent.attempts ≤ limit ∧ spent.tries = 0
  | _ => True

/-- No more was spent than a policy with `limit` retries allows. -/
structure Trace.Spent.Within (limit : Nat) (spent : Spent) : Prop where
  attempts_le : spent.attempts ≤ limit + 1
  tries_le : spent.tries ≤ limit + 1
  openings_le : spent.openings ≤ spent.attempts * (limit + 1) + spent.tries
  /-- Behind the last attempt no session is opened. -/
  used_up : spent.attempts = limit + 1 → spent.tries = 0

theorem Trace.Spent.Within.openings_le_sq {limit : Nat} {spent : Spent}
    (within : spent.Within limit) : spent.openings ≤ (limit + 1) * (limit + 1) := by
  obtain ⟨attempts_le, tries_le, openings_le, used_up⟩ := within
  rcases Nat.eq_or_lt_of_le attempts_le with last | earlier
  · rw [used_up last, last] at openings_le
    exact openings_le
  · have fewer : spent.attempts * (limit + 1) ≤ limit * (limit + 1) :=
      Nat.mul_le_mul_right _ (Nat.le_of_lt_succ earlier)
    rw [Nat.succ_mul]
    omega

namespace Trace.Spent

variable {limit : Nat} {spent : Spent}

theorem within_nothing (limit : Nat) : ({} : Spent).Within limit where
  attempts_le := Nat.zero_le _
  tries_le := Nat.zero_le _
  openings_le := Nat.zero_le _
  used_up _ := rfl

theorem Within.complete (within : spent.Within limit) :
    ({ tries := spent.tries } : Spent).Within limit where
  attempts_le := Nat.zero_le _
  tries_le := within.tries_le
  openings_le := Nat.zero_le _
  used_up absurd := nomatch absurd

theorem Within.ask (within : spent.Within limit) (attempts_le : spent.attempts ≤ limit)
    (tries_le : spent.tries ≤ limit) :
    ({ spent with openings := spent.openings + 1, tries := spent.tries + 1 } : Spent).Within
      limit where
  attempts_le := within.attempts_le
  tries_le := Nat.succ_le_succ tries_le
  openings_le := Nat.succ_le_succ within.openings_le
  used_up last := by
    have last : spent.attempts = limit + 1 := last
    omega

theorem Within.submit (within : spent.Within limit) (attempts_le : spent.attempts ≤ limit) :
    ({ spent with attempts := spent.attempts + 1, tries := 0 } : Spent).Within limit where
  attempts_le := Nat.succ_le_succ attempts_le
  tries_le := Nat.zero_le _
  openings_le := by
    have openings_le := within.openings_le
    have tries_le := within.tries_le
    have grown : (spent.attempts + 1) * (limit + 1) =
        spent.attempts * (limit + 1) + (limit + 1) := Nat.succ_mul _ _
    change spent.openings ≤ (spent.attempts + 1) * (limit + 1) + 0
    omega
  used_up _ := rfl

end Trace.Spent

variable {scenario : Scenario} {machine machine' : Machine} {label : Option Entry}
  {trace : List Entry}

theorem Backend.isFree_release (backend : Backend) (session : Nat) :
    (Entry.call (backend.release session)).isFree = true := by
  rcases backend.release_eq session with release_eq | release_eq <;> rw [release_eq] <;> rfl

theorem Instance.isFree_eventOf (target : Instance) (notice : Notice) :
    (Entry.event (target.eventOf notice)).isFree = true := by
  cases notice <;> rfl

theorem Instance.isFree_failureEvent (target : Instance) (failure : SessionError) :
    (Entry.event (target.failureEvent failure)).isFree = true := by
  cases failure <;> rfl

/-- One move spends no more than the policy allows. -/
theorem Move.spends (move : Move scenario machine label machine')
    (within : (spent trace).Within scenario.policy.maxRetries.toNat)
    (spends : machine.stage.Spends scenario.policy.maxRetries.toNat (spent trace)) :
    (spent (trace ++ label.toList)).Within scenario.policy.maxRetries.toNat ∧
      machine'.stage.Spends scenario.policy.maxRetries.toNat (spent (trace ++ label.toList)) := by
  cases move with
  | start stage_eq todo_eq =>
      rw [Option.toList_some, spent_of_started]
      exact ⟨Spent.within_nothing _, rfl, rfl⟩
  | complete stage_eq =>
      rw [Option.toList_some, spent_of_completed]
      exact ⟨within.complete, trivial⟩
  | @ask target attempt tried stage_eq held_eq allowed =>
      rw [stage_eq] at spends
      obtain ⟨attempt_eq, attempts_le, rfl⟩ := spends
      rw [scenario.policy.toNat_maxAttempts] at allowed
      rw [Option.toList_some, spent_of_open]
      exact ⟨within.ask attempts_le (by omega), attempt_eq, attempts_le, rfl⟩
  | submit stage_eq =>
      rw [stage_eq] at spends
      rw [Option.toList_some, spent_of_execute]
      exact ⟨within.submit spends.2, spends.1, rfl⟩
  | replace stage_eq | release stage_eq =>
      rw [spent_of_free (by simp [Backend.isFree_release])]
      exact ⟨within, spends⟩
  | forward stage_eq =>
      rw [stage_eq] at spends
      rw [spent_of_free (by simp [Instance.isFree_eventOf])]
      exact ⟨within, spends⟩
  | report =>
      rw [spent_of_free (by simp [Instance.isFree_failureEvent])]
      exact ⟨within, trivial⟩
  | discard =>
      rw [spent_of_free (by simp [Entry.isFree])]
      exact ⟨within, spends⟩
  | @retry target attempt call failure delay stage_eq kept quiet delay_eq =>
      rw [stage_eq] at spends
      rw [spent_of_free (by simp [Entry.isFree])]
      have allowed := Retry.Policy.le_of_retryDelay? delay_eq
      exact ⟨within, spends.1, spends.1 ▸ allowed, spends.2⟩
  | again stage_eq =>
      rw [stage_eq] at spends
      rw [spent_of_free (by simp)]
      exact ⟨within, congrArg (· + 1) spends.1, spends.2⟩
  | seek stage_eq =>
      rw [stage_eq] at spends
      rw [spent_of_free (by simp)]
      exact ⟨within, by rw [spends.1], by rw [spends.1]; exact Nat.zero_le _, spends.2⟩
  | _ =>
      rw [spent_of_free (by simp [Entry.isFree])]
      refine ⟨within, ?_⟩
      simp_all [Stage.Spends]

theorem Path.spends (path : Path scenario (.start scenario.script) trace machine) :
    (spent trace).Within scenario.policy.maxRetries.toNat ∧
      machine.stage.Spends scenario.policy.maxRetries.toNat (spent trace) := by
  induction path with
  | nil => exact ⟨Spent.within_nothing _, trivial⟩
  | snoc _ move induction => exact move.spends induction.1 induction.2

namespace Stage

theorem target?_of_interrupted {backend : Backend} {stage : Stage} {target : Instance}
    (interrupted : stage.Idles backend target ∨ stage.Waits backend target) :
    stage.target? = some target :=
  interrupted.elim Idles.target?_eq Waits.target?_eq

/-- A session is to be opened once more. -/
inductive Reopens (target : Instance) (attempt tried call : Nat) : Stage → Prop
  | opening : Reopens target attempt tried call (.opening target attempt tried call)
  | acquiring : Reopens target attempt tried call (.acquiring target attempt tried)
  | leaving : Reopens target attempt tried call (.leaving target)

/-- The batch is to be submitted once more. -/
inductive Resubmits (target : Instance) (attempt call : Nat) (failure : SessionError) :
    Stage → Prop
  | awaiting : Resubmits target attempt call failure (.awaiting target attempt call [])
  | failed : Resubmits target attempt call failure (.failed target attempt call failure)
  | pausing : Resubmits target attempt call failure (.pausing target attempt call failure)
  | acquiring {tried : Nat} :
      Resubmits target attempt call failure (.acquiring target (attempt + 1) tried)
  | opening {tried opening : Nat} :
      Resubmits target attempt call failure (.opening target (attempt + 1) tried opening)
  | opened {tried : Nat} {session : Session} :
      Resubmits target attempt call failure (.opened target (attempt + 1) tried session)
  | holding : Resubmits target attempt call failure (.holding target (attempt + 1))
  | leaving : Resubmits target attempt call failure (.leaving target)
  | lost : Resubmits target attempt call failure .lost

theorem Reopens.eq_of_interrupted {backend : Backend} {stage : Stage} {target here : Instance}
    {attempt tried call : Nat} (reopens : stage.Reopens target attempt tried call)
    (interrupted : stage.Idles backend here ∨ stage.Waits backend here) : here = target := by
  have here_eq := target?_of_interrupted interrupted
  cases reopens <;> exact (Option.some.inj here_eq).symm

theorem Resubmits.eq_of_interrupted {backend : Backend} {stage : Stage} {target here : Instance}
    {attempt call : Nat} {failure : SessionError}
    (resubmits : stage.Resubmits target attempt call failure)
    (interrupted : stage.Idles backend here ∨ stage.Waits backend here) : here = target := by
  have here_eq := target?_of_interrupted interrupted
  cases resubmits <;> first | exact (Option.some.inj here_eq).symm | cases here_eq

theorem Reopens.unended {stage : Stage} {target : Instance} {attempt tried call : Nat}
    (reopens : stage.Reopens target attempt tried call) : stage.Unended := by
  cases reopens <;> trivial

theorem Resubmits.unended {stage : Stage} {target : Instance} {attempt call : Nat}
    {failure : SessionError} (resubmits : stage.Resubmits target attempt call failure) :
    stage.Unended := by
  cases resubmits <;> trivial

end Stage

/-- No session is held, and one is to be opened once more. -/
def Machine.Reopens (target : Instance) (attempt tried call : Nat) (machine : Machine) : Prop :=
  machine.held = none ∧ machine.stage.Reopens target attempt tried call

/-- A session for the instance is to be opened, or the run is cancelled in it. -/
def Entry.Renews (target : Instance) (entry : Entry) : Prop :=
  entry = .call (.openSession target.batch.connectTarget) ∨
    entry = .event (.scriptCancelled target.batch.index)

/-- While a session is to be opened once more, nothing else happens unless the run is cancelled. -/
theorem Move.reopens {target : Instance} {attempt tried call : Nat} {failure : SessionError}
    {delay : Retry.Delay} (move : Move scenario machine label machine')
    (outcome_eq : (scenario.backend.opening call).outcome? = some (.error failure))
    (delay_eq : scenario.policy.retryDelay? tried failure = some delay)
    (reopens : machine.Reopens target attempt tried call) :
    (∀ entry, label = some entry → False) ∧ machine'.Reopens target attempt tried call ∨
      ∃ entry, label = some entry ∧ entry.Renews target := by
  obtain ⟨held_eq, reopens⟩ := reopens
  cases move with
  | reopen stage_eq =>
      rw [stage_eq] at reopens
      cases reopens
      exact .inl ⟨by simp, held_eq, .acquiring⟩
  | ask stage_eq =>
      rw [stage_eq] at reopens
      cases reopens
      exact .inr ⟨_, rfl, .inl rfl⟩
  | opened stage_eq succeeds =>
      rw [stage_eq] at reopens
      cases reopens
      simp [outcome_eq] at succeeds
  | giveUp stage_eq failed given_up =>
      rw [stage_eq] at reopens
      cases reopens
      obtain rfl : failure = _ := by simpa [outcome_eq] using failed
      simp [delay_eq] at given_up
  | leave interrupted =>
      obtain rfl := reopens.eq_of_interrupted (interrupted.imp_right And.left)
      exact .inl ⟨by simp, held_eq, .leaving⟩
  | cancel stage_eq =>
      rw [stage_eq] at reopens
      cases reopens
      exact .inr ⟨_, rfl, .inr rfl⟩
  | lose held | letGo _ held | replace _ held | discard _ held | hold _ held | release _ held
  | submit _ held =>
      simp [held_eq] at held
  | _ =>
      rw [‹machine.stage = _›] at reopens
      cases reopens

/-- What may happen while a batch is to be submitted once more. -/
def Entry.Prepares (target : Instance) (setback : Setback) (entry : Entry) : Prop :=
  entry = .event (target.announcement setback) ∨
    ∃ call, entry = .call call ∧ ∀ session text, call ≠ .execute session text

/-- The batch is submitted once more, or never again. -/
def Entry.Decides (target : Instance) (entry : Entry) : Prop :=
  (∃ session, entry = .call (.execute session target.batch.text)) ∨
    entry = .event (.scriptCancelled target.batch.index) ∨
      ∃ failure : SessionError, entry = .event (.scriptHalted target.batch.index
        ("failed to open a session: " ++ failure.message))

theorem Backend.prepares_release (backend : Backend) (target : Instance) (setback : Setback)
    (session : Nat) : (Entry.call (backend.release session)).Prepares target setback := by
  refine .inr ⟨_, rfl, fun _ _ same => ?_⟩
  rcases backend.release_eq session with release_eq | release_eq <;> rw [release_eq] at same <;>
    cases same

theorem Move.resubmits {target : Instance} {attempt call : Nat} {setback : Setback}
    (move : Move scenario machine label machine')
    (silent : (scenario.backend.executing call).notices = [])
    (outcome_eq : (scenario.backend.executing call).outcome? = some (.error setback.failure))
    (delay_eq : scenario.policy.retryDelay? attempt setback.failure = some setback.delay)
    (resubmits : machine.stage.Resubmits target attempt call setback.failure) :
    (∀ entry, label = some entry → entry.Prepares target setback) ∧
        machine'.stage.Resubmits target attempt call setback.failure ∨
      ∃ entry, label = some entry ∧ entry.Decides target := by
  have not_cancelled : setback.failure ≠ .cancelled := by
    intro cancelled
    simp [cancelled, Retry.Policy.retryDelay?_cancelled] at delay_eq
  have calls {made : Call} (other : ∀ session text, made ≠ .execute session text) :
      ∀ entry, some (Entry.call made) = some entry → entry.Prepares target setback := by
    rintro _ ⟨⟩
    exact .inr ⟨made, rfl, other⟩
  cases move with
  | fail stage_eq failed =>
      rw [stage_eq] at resubmits
      generalize (scenario.backend.executing _).notices = sent at resubmits
      cases resubmits
      obtain rfl : setback.failure = _ := by simpa [outcome_eq] using failed
      exact .inl ⟨by simp, .failed⟩
  | succeed stage_eq succeeded =>
      rw [stage_eq] at resubmits
      generalize (scenario.backend.executing _).notices = sent at resubmits
      cases resubmits
      simp [outcome_eq] at succeeded
  | forward stage_eq sent =>
      rw [stage_eq] at resubmits
      cases resubmits
      simp [silent] at sent
  | discard stage_eq =>
      rw [stage_eq] at resubmits
      cases resubmits
      exact .inl ⟨calls (by simp), stage_eq ▸ .failed⟩
  | refuse stage_eq =>
      rw [stage_eq] at resubmits
      generalize refused_eq : SessionError.cancelled = refused at resubmits
      cases resubmits
      exact absurd refused_eq.symm not_cancelled
  | retry stage_eq _ _ allowed =>
      rw [stage_eq] at resubmits
      cases resubmits
      obtain rfl : setback.delay = _ := by simpa [delay_eq] using allowed
      refine .inl ⟨?_, .pausing⟩
      rintro _ ⟨⟩
      exact .inl rfl
  | report stage_eq _ _ final =>
      rw [stage_eq] at resubmits
      cases resubmits
      simp [silent, delay_eq] at final
  | again stage_eq =>
      rw [stage_eq] at resubmits
      cases resubmits
      exact .inl ⟨by simp, .acquiring⟩
  | replace stage_eq =>
      rw [stage_eq] at resubmits
      cases resubmits
      refine .inl ⟨?_, stage_eq ▸ .acquiring⟩
      rintro _ ⟨⟩
      exact scenario.backend.prepares_release _ _ _
  | ask stage_eq =>
      rw [stage_eq] at resubmits
      cases resubmits
      exact .inl ⟨calls (by simp), .opening⟩
  | reopen stage_eq | keep stage_eq =>
      rw [stage_eq] at resubmits
      cases resubmits
      exact .inl ⟨by simp, .acquiring⟩
  | opened stage_eq =>
      rw [stage_eq] at resubmits
      cases resubmits
      exact .inl ⟨by simp, .opened⟩
  | giveUp stage_eq =>
      rw [stage_eq] at resubmits
      cases resubmits
      exact .inr ⟨_, rfl, .inr (.inr ⟨_, rfl⟩)⟩
  | hold stage_eq =>
      rw [stage_eq] at resubmits
      cases resubmits
      exact .inl ⟨by simp, .holding⟩
  | submit stage_eq =>
      rw [stage_eq] at resubmits
      cases resubmits
      exact .inr ⟨_, rfl, .inl ⟨_, rfl⟩⟩
  | leave interrupted =>
      obtain rfl := resubmits.eq_of_interrupted (interrupted.imp_right And.left)
      exact .inl ⟨by simp, .leaving⟩
  | letGo waits =>
      obtain rfl := resubmits.eq_of_interrupted (.inr waits)
      exact .inl ⟨calls (by simp), .leaving⟩
  | cancel stage_eq =>
      rw [stage_eq] at resubmits
      cases resubmits
      exact .inr ⟨_, rfl, .inr (.inl rfl)⟩
  | lose => exact .inl ⟨calls (by simp), .lost⟩
  | _ =>
      rw [‹machine.stage = _›] at resubmits
      cases resubmits

section Path

variable {front rest : List Entry} {final : Machine} {failure : SessionError}

/-- Opening a session is tried again as long as less was tried since the last submission than the
policy allows. -/
theorem Path.opens_again {wanted : Option String}
    (path : Path scenario (.start scenario.script) (front ++ .call (.openSession wanted) :: rest)
      final)
    (outcome_eq : (scenario.backend.opening (Trace.wanted front).length).outcome? =
      some (.error failure))
    (passing : scenario.policy.isTransient failure = true)
    (left : tries front < scenario.policy.maxRetries.toNat) :
    (∃ more, rest = .call (.openSession wanted) :: more) ∨
      (∃ index more, rest = .event (.scriptCancelled index) :: more) ∨
        rest = [] ∧ final.stage.Unended := by
  obtain ⟨before, after, to_before, move, onward⟩ := path.split rfl
  obtain ⟨target, attempt, tried, stage_eq, after_eq, -, held_eq, rfl⟩ := move.open_origin
  have spends := to_before.spends.2
  rw [stage_eq] at spends
  obtain ⟨-, -, rfl⟩ := spends
  rw [to_before.custody.1.wanted_length] at outcome_eq
  have begins : after.Reopens target attempt (tries front + 1) before.openings :=
    ⟨held_eq, after_eq ▸ .opening⟩
  have delay_eq := scenario.policy.retryDelay?_of_left passing left
  rcases onward.next _ _ _ (fun move => move.reopens outcome_eq delay_eq) begins with
    ⟨none_left, -, reopens⟩ | ⟨earlier, entry, more, rfl, none_earlier, renews⟩
  · exact .inr (.inr ⟨List.eq_nil_iff_forall_not_mem.mpr none_left, reopens.unended⟩)
  · obtain rfl := List.eq_nil_iff_forall_not_mem.mpr none_earlier
    rcases renews with rfl | rfl
    · exact .inl ⟨more, rfl⟩
    · exact .inr (.inl ⟨_, more, rfl⟩)

/-- A batch whose call sent no notices and failed in passing is submitted again as long as it was
submitted less often since its instance began than the policy allows. -/
theorem Path.submits_again {session : Nat} {text : String}
    (path : Path scenario (.start scenario.script)
      (front ++ .call (.execute session text) :: rest) final)
    (silent : (scenario.backend.executing (executed front).length).notices = [])
    (outcome_eq : (scenario.backend.executing (executed front).length).outcome? =
      some (.error failure))
    (passing : scenario.policy.isTransient failure = true)
    (left : attempts front < scenario.policy.maxRetries.toNat) :
    ∃ target ∈ scenario.script.instances, target.batch.text = text ∧
      let setback : Setback :=
        { delay := scenario.policy.backoff.delay (.ofNat (attempts front)), failure }
      (∃ before entry more, rest = before ++ entry :: more ∧
        (∀ entry ∈ before, entry.Prepares target setback) ∧ entry.Decides target) ∨
      (∀ entry ∈ rest, entry.Prepares target setback) ∧ final.stage.Unended := by
  obtain ⟨before, after, to_before, move, onward⟩ := path.split rfl
  obtain ⟨target, attempt, -, stage_eq, after_eq, -, -, -, text_eq⟩ := move.execute_origin
  have known := to_before.knows.here target (by rw [stage_eq]; rfl)
  have spends := to_before.spends.2
  rw [stage_eq] at spends
  obtain ⟨rfl, -⟩ := spends
  rw [to_before.custody.1.executed_length] at outcome_eq silent
  have begins : after.stage.Resubmits target (attempts front + 1) before.executions failure :=
    after_eq ▸ .awaiting
  have delay_eq := scenario.policy.retryDelay?_of_left passing left
  refine ⟨target, known, text_eq, ?_⟩
  intro setback
  have failed : (scenario.backend.executing before.executions).outcome? =
      some (.error setback.failure) := outcome_eq
  have allowed : scenario.policy.retryDelay? (attempts front + 1) setback.failure =
      some setback.delay := delay_eq
  rcases onward.next (fun machine => machine.stage.Resubmits target (attempts front + 1)
    before.executions failure) _ _ (fun move => move.resubmits silent failed allowed) begins with
    ⟨all_prepare, resubmits⟩ | ⟨earlier, entry, more, rfl, all_prepare, decides⟩
  · exact .inr ⟨all_prepare, resubmits.unended⟩
  · exact .inl ⟨earlier, entry, more, rfl, all_prepare, decides⟩

end Path

theorem Behavior.Returns.outcome?_ne {behavior : Behavior} (returns : behavior.Returns) :
    behavior.outcome? ≠ none := by
  induction behavior with
  | finish => simp [outcome?]
  | stall => exact returns.elim
  | yield next induction | notify _ next induction | cancel next induction
  | dropReceiver next induction => exact induction returns

/-- Where all calls return, a run does not stay at any stage. -/
theorem Backend.Returns.not_stalls {backend : Backend} (returns : backend.Returns) (stage : Stage) :
    ¬stage.Stalls backend := by
  intro stalls
  cases stage with
  | acquiring | ending =>
      obtain ⟨call, endless⟩ := stalls
      exact (returns.closing call).outcome?_ne endless
  | opening _ _ _ call => exact (returns.opening call).outcome?_ne stalls
  | awaiting _ _ call => exact (returns.executing call).outcome?_ne stalls
  | _ => exact stalls

/-- A run whose calls return comes to its end, and it stops in between only for want of a
receiver. -/
theorem Machine.Ends.of_returns {result : Except Stop Summary}
    (ends : machine.Ends scenario result) (returns : scenario.backend.Returns)
    (limited : scenario.policy.maxRetries + 1 ≠ 0) :
    (∀ stop, result = .error stop → ∃ failure, stop = .failed failure) ∧
      (machine.stage.Unended → result = .error (.failed .receiverGone)) := by
  have returned : result ≠ .error .stalled := by
    rintro rfl
    exact returns.not_stalls _ ends
  have counted : result ≠ .error .uncounted := by
    rintro rfl
    exact limited ends.1
  refine ⟨?_, fun unended => ends.receiverGone unended returned counted⟩
  rintro stop rfl
  cases stop with
  | failed failure => exact ⟨failure, rfl⟩
  | stalled | uncounted => contradiction

/-- A run whose calls return comes to its end.  Within one instance, a batch is submitted once more
than the policy retries at most, and at most that many sessions are to be opened between two
submissions.  What failed before an instance, or before its last submission, is not counted: an
opening that fails in passing is tried again, and a batch that fails so is submitted again, after
the delay for its own number, as long as the policy allows another for this instance and the run is
not asked to be cancelled. -/
theorem budgets_of_run {policy : Retry.Policy} {backend : Backend} (script : Script)
    (audience : Audience) (returns : backend.Returns) (limited : policy.maxRetries + 1 ≠ 0) :
    let limit := policy.maxRetries.toNat
    let outcome := run policy backend script audience
    outcome.Ended ∧
      (∀ front since back, outcome.trace = front ++ since ++ back →
        (∀ entry ∈ since, entry.borders = false) →
          (executed since).length ≤ limit + 1 ∧
            (wanted since).length ≤ (limit + 1) * (limit + 1)) ∧
      (∀ front since back, outcome.trace = front ++ since ++ back →
        (∀ entry ∈ since, entry.begins = false) → (wanted since).length ≤ limit + 1) ∧
      (∀ front wanted rest failure,
        outcome.trace = front ++ .call (.openSession wanted) :: rest →
          (backend.opening (Trace.wanted front).length).outcome? = some (.error failure) →
            policy.isTransient failure = true → tries front < limit →
              (∃ more, rest = .call (.openSession wanted) :: more) ∨
                (∃ index more, rest = .event (.scriptCancelled index) :: more ∧
                    Petitioned backend audience (front ++ [.call (.openSession wanted)])) ∨
                  rest = [] ∧ outcome.result = .error (.failed .receiverGone)) ∧
      ∀ front session text rest failure,
        outcome.trace = front ++ .call (.execute session text) :: rest →
          (backend.executing (executed front).length).notices = [] →
            (backend.executing (executed front).length).outcome? = some (.error failure) →
              policy.isTransient failure = true → attempts front < limit →
                ∃ target ∈ script.instances, target.batch.text = text ∧
                  let setback : Setback :=
                    { delay := policy.backoff.delay (.ofNat (attempts front)), failure }
                  (∃ before entry more, rest = before ++ entry :: more ∧
                    (∀ entry ∈ before, entry.Prepares target setback) ∧ entry.Decides target ∧
                      (entry.cancels = true → Petitioned backend audience
                        (front ++ .call (.execute session text) :: before))) ∨
                  (∀ entry ∈ rest, entry.Prepares target setback) ∧
                    outcome.result = .error (.failed .receiverGone) := by
  intro limit outcome
  obtain ⟨machine, path, ends⟩ := path_of_run policy backend script audience
  obtain ⟨ended, unreceived⟩ := ends.of_returns returns limited
  have cancels := (sound_of_run policy backend script audience).obeys.cancels
  refine ⟨ended, ?_, ?_, ?_, ?_⟩
  · intro front since back trace_eq inside
    obtain ⟨_, to_before⟩ := path.front trace_eq
    have attempts_le := to_before.spends.1.attempts_le
    have openings_le := to_before.spends.1.openings_le_sq
    rw [spent] at attempts_le openings_le
    rw [attempts_append inside] at attempts_le
    rw [openings_append inside] at openings_le
    exact ⟨Nat.le_of_add_left_le attempts_le, Nat.le_of_add_left_le openings_le⟩
  · intro front since back trace_eq inside
    obtain ⟨_, to_before⟩ := path.front trace_eq
    have tries_le := to_before.spends.1.tries_le
    rw [spent, tries_append inside] at tries_le
    exact Nat.le_of_add_left_le tries_le
  · intro front wanted rest failure trace_eq outcome_eq passing left
    rw [show (run policy backend script audience).trace = _ from trace_eq] at path
    rcases path.opens_again outcome_eq passing left with
      again | ⟨index, more, rfl⟩ | ⟨none_left, unended⟩
    · exact .inl again
    · rw [List.append_cons] at trace_eq
      exact .inr (.inl ⟨index, more, rfl, cancels _ _ _ trace_eq rfl⟩)
    · exact .inr (.inr ⟨none_left, unreceived unended⟩)
  · intro front session text rest failure trace_eq silent outcome_eq passing left
    rw [show (run policy backend script audience).trace = _ from trace_eq] at path
    obtain ⟨target, known, text_eq, course⟩ := path.submits_again silent outcome_eq passing left
    refine ⟨target, known, text_eq, ?_⟩
    rcases course with ⟨before, entry, more, rfl, all_prepare, decides⟩ | ⟨all_prepare, unended⟩
    · rw [← List.cons_append, ← List.append_assoc] at trace_eq
      exact .inl ⟨before, entry, more, rfl, all_prepare, decides, cancels _ _ _ trace_eq⟩
    · exact .inr ⟨all_prepare, unreceived unended⟩

/-- A session that cannot be opened at first is opened at the next try. -/
theorem budgets_of_slow_opening :
    let timeout : SessionError := .timeout "slow"
    let backend := Backend.ofLists [.finish (.error timeout)] [] []
    let batch : Batch := { (default : Batch) with text := "SELECT 1", repeatCount := 1 }
    let script : Script := { batches := #[batch], trailingMessages := [], outputTargets := {} }
    let outcome := run .usual backend script {}
    let started : Entry := .event (Instance.started { batch, repetition := 1 })
    outcome.calls =
        [.openSession none, .openSession none, .execute 1 "SELECT 1", .close 1] ∧
      (backend.Returns ∧ Retry.Policy.usual.maxRetries + 1 ≠ 0) ∧ outcome.Ended ∧
      ∃ rest, outcome.trace = [started] ++ .call (.openSession none) :: rest ∧
        ((∃ more, rest = .call (.openSession none) :: more) ∨
          (∃ index more, rest = .event (.scriptCancelled index) :: more ∧
              Petitioned backend {} ([started] ++ [.call (.openSession none)])) ∨
            rest = [] ∧ outcome.result = .error (.failed .receiverGone)) := by
  intro timeout backend batch script outcome started
  have calls_eq : outcome.calls =
      [.openSession none, .openSession none, .execute 1 "SELECT 1", .close 1] := by
    decide +kernel
  have returns : backend.Returns := by
    refine ⟨fun call => ?_, fun _ => trivial, fun _ => trivial⟩
    cases call <;> exact trivial
  have limited : Retry.Policy.usual.maxRetries + 1 ≠ 0 := by decide
  have trace_eq : outcome.trace =
      [started] ++ .call (.openSession none) :: outcome.trace.drop 2 := by
    decide +kernel
  obtain ⟨ended, -, -, opens_again, -⟩ := budgets_of_run script {} returns limited
  have again := opens_again [started] none _ timeout trace_eq rfl (by decide) (by decide)
  exact ⟨calls_eq, ⟨returns, limited⟩, ended, _, trace_eq, again⟩

end Engine
end SqlScript
