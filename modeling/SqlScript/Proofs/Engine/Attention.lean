import SqlScript.Proofs.Engine.Requests

/-!
# How a run learns of requests

A request to cancel the run uses up the patience of those who follow it, and patience that is used
up stays so.  While sessions are opened and closed, requests are made and noticed, but nothing is
said and no batch is submitted.
-/

namespace SqlScript
namespace Engine

open Trace

/-- How patience changes.  A request uses it up for good; without one it only grows less.  It never
comes to have no bound. -/
structure Minds (asked : Prop) (before after : Option Nat) : Prop where
  alert : asked ∨ before = some 0 → after = some 0
  calm : ¬asked → ∀ left, after = some left → ∃ total, before = some total ∧ left ≤ total
  boundless : after = none → before = none

namespace Minds

variable {asked asked' : Prop} {before after : Option Nat}

theorem refl (patience : Option Nat) : Minds False patience patience where
  alert := by simp
  calm _ left left_eq := ⟨left, left_eq, Nat.le_refl left⟩
  boundless := id

theorem look (minds : Minds asked before after) : Minds asked before (after.map (· - 1)) where
  alert used_up := by rw [minds.alert used_up, Option.map_some]
  calm unasked left left_eq := by
    obtain ⟨last, last_eq, rfl⟩ := Option.map_eq_some_iff.mp left_eq
    obtain ⟨total, total_eq, last_le⟩ := minds.calm unasked last last_eq
    exact ⟨total, total_eq, Nat.le_trans (Nat.sub_le last 1) last_le⟩
  boundless endless := minds.boundless (Option.map_eq_none_iff.mp endless)

/-- A request may be noticed before it was made. -/
theorem of_used_up (minds : Minds asked before (some 0)) (asked_of : asked → asked') :
    Minds asked' before (some 0) where
  alert _ := rfl
  calm unasked := minds.calm (unasked ∘ asked_of)
  boundless := minds.boundless

end Minds

/-- The state counts the calls of its trace and minds the requests during them; `asks` says whether
the call in progress is still to ask for the run to be cancelled. -/
structure Attends (backend : Backend) (audience : Audience) (asks : Bool) (state : RunState) :
    Prop where
  openings_eq : (wanted state.trace.toList).length = state.openings
  executions_eq : (executed state.trace.toList).length = state.executions
  closings_eq : (closed state.trace.toList).length = state.closings
  minds : ∃ asked, (Asked backend state.trace.toList ↔ asked ∨ asks = true) ∧
    Minds asked audience.patience state.patience

namespace Attends

variable {backend : Backend} {audience : Audience} {asks : Bool} {state after : RunState}

theorem start : Attends backend audience false { toAudience := audience } where
  openings_eq := rfl
  executions_eq := rfl
  closings_eq := rfl
  minds := ⟨False, by simp [Asked], .refl _⟩

/-- Between calls all requests have been made. -/
theorem minds_all (attends : Attends backend audience false state) :
    Minds (Asked backend state.trace.toList) audience.patience state.patience := by
  obtain ⟨asked, asked_iff, minds⟩ := attends.minds
  rwa [show asked = Asked backend state.trace.toList by simp [asked_iff]] at minds

theorem of_eq (attends : Attends backend audience asks state)
    (trace_eq : after.trace = state.trace) (patience_eq : after.patience = state.patience)
    (openings_eq : after.openings = state.openings)
    (executions_eq : after.executions = state.executions)
    (closings_eq : after.closings = state.closings) : Attends backend audience asks after where
  openings_eq := by rw [trace_eq, openings_eq, attends.openings_eq]
  executions_eq := by rw [trace_eq, executions_eq, attends.executions_eq]
  closings_eq := by rw [trace_eq, closings_eq, attends.closings_eq]
  minds := by
    rw [trace_eq, patience_eq]
    exact attends.minds

theorem look (attends : Attends backend audience asks state) :
    Attends backend audience asks { state with toAudience := state.looked } where
  openings_eq := attends.openings_eq
  executions_eq := attends.executions_eq
  closings_eq := attends.closings_eq
  minds := by
    obtain ⟨asked, asked_iff, minds⟩ := attends.minds
    exact ⟨asked, asked_iff, minds.look⟩

theorem requestCancel (attends : Attends backend audience true state) (asks : Bool) :
    Attends backend audience asks { state with patience := some 0 } where
  openings_eq := attends.openings_eq
  executions_eq := attends.executions_eq
  closings_eq := attends.closings_eq
  minds := by
    obtain ⟨asked, asked_iff, minds⟩ := attends.minds
    exact ⟨True, by simp [asked_iff], fun _ => rfl, fun unasked => absurd trivial unasked, nofun⟩

/-- A call during which a request is noticed need not be waited for. -/
theorem interrupted (attends : Attends backend audience asks state)
    (used_up : state.patience = some 0) : Attends backend audience false state where
  openings_eq := attends.openings_eq
  executions_eq := attends.executions_eq
  closings_eq := attends.closings_eq
  minds := by
    obtain ⟨asked, asked_iff, minds⟩ := attends.minds
    rw [used_up] at minds ⊢
    exact ⟨_, by simp, minds.of_used_up fun asked => asked_iff.mpr (.inl asked)⟩

/-- A call is made, and the calls of its sort are counted. -/
theorem call (attends : Attends backend audience false state) (call : Call)
    (trace_eq : after.trace.toList = state.trace.toList ++ [.call call])
    (patience_eq : after.patience = state.patience)
    (openings_eq : after.openings = state.openings + (wanted [.call call]).length)
    (executions_eq : after.executions = state.executions + (executed [.call call]).length)
    (closings_eq : after.closings = state.closings + (closed [.call call]).length) :
    Attends backend audience ((backend.behavior? state.trace.toList call).any Behavior.asks)
      after where
  openings_eq := by
    rw [trace_eq, openings_eq, ← attends.openings_eq, ← List.length_append]
    exact congrArg List.length List.filterMap_append
  executions_eq := by
    rw [trace_eq, executions_eq, ← attends.executions_eq, ← List.length_append]
    exact congrArg List.length List.filterMap_append
  closings_eq := by
    rw [trace_eq, closings_eq, ← attends.closings_eq, ← List.length_append]
    exact congrArg List.length List.filterMap_append
  minds := by
    rw [trace_eq, patience_eq]
    exact ⟨_, by simp [asked_concat, Backend.requests], attends.minds_all⟩

/-- A session is let go. -/
theorem discard (attends : Attends backend audience false state) (session : Nat) :
    Attends backend audience false
      { state with session := none, trace := state.trace.push (.call (.discard session)) } :=
  attends.call (.discard session) Array.toList_push rfl rfl rfl rfl

/-- Events are told. -/
theorem tell {events : List Event} (attends : Attends backend audience asks state)
    (trace_eq : after.trace.toList = state.trace.toList ++ events.map .event)
    (patience_eq : after.patience = state.patience) (openings_eq : after.openings = state.openings)
    (executions_eq : after.executions = state.executions)
    (closings_eq : after.closings = state.closings) : Attends backend audience asks after where
  openings_eq := by
    rw [trace_eq, openings_eq, ← attends.openings_eq]
    simp [wanted, List.filterMap_map]
  executions_eq := by
    rw [trace_eq, executions_eq, ← attends.executions_eq]
    simp [executed, List.filterMap_map]
  closings_eq := by
    rw [trace_eq, closings_eq, ← attends.closings_eq]
    simp [closed, List.filterMap_map]
  minds := by
    rw [trace_eq, patience_eq, asked_append_events]
    exact attends.minds

/-- Where no request is noticed, none has been made. -/
theorem not_requested (attends : Attends backend audience false state)
    (unnoticed : state.cancelled = false) :
    ¬Requested backend audience state.trace.toList := by
  intro requested
  have used_up := attends.minds_all.alert requested.symm
  rw [RunState.cancelled, used_up] at unnoticed
  contradiction

/-- A request that is noticed was made. -/
theorem petitioned (attends : Attends backend audience false state)
    (used_up : state.patience = some 0) : Petitioned backend audience state.trace.toList := by
  by_cases asked : Asked backend state.trace.toList
  · exact .inr asked
  · obtain ⟨total, total_eq, -⟩ := attends.minds_all.calm asked 0 used_up
    exact .inl (by simp [total_eq])

end Attends

/-- A request that is noticed has used up all patience. -/
theorem RunState.looked_of_cancelled {state : RunState} (noticed : state.cancelled = true) :
    state.looked.patience = some 0 := by
  simp [Audience.looked, beq_iff_eq.mp noticed]

/-- The call runs a batch. -/
def Call.runs : Call → Bool
  | .execute _ _ => true
  | _ => false

/-- From `state` on, sessions may have been opened and closed, but nothing was said and no batch was
submitted.  Where there is no result, a request was noticed. -/
structure Tended {α : Type} (backend : Backend) (audience : Audience) (state : RunState)
    (result : Except Stop (Option α)) (after : RunState) : Prop where
  calls : ∃ calls : List Call, after.trace.toList = state.trace.toList ++ calls.map .call ∧
    ∀ call ∈ calls, call.runs = false
  attends : result.isOk = true → Attends backend audience false after
  noticed : result = .ok none → after.patience = some 0

namespace Tended

variable {α β : Type} {backend : Backend} {audience : Audience} {state middle after : RunState}
  {result : Except Stop (Option α)}

theorem of_trace_eq (trace_eq : after.trace = state.trace)
    (attends : result.isOk = true → Attends backend audience false after)
    (noticed : result = .ok none → after.patience = some 0) :
    Tended backend audience state result after where
  calls := ⟨[], by simp [trace_eq], by simp⟩
  attends := attends
  noticed := noticed

theorem behind (tended : Tended backend audience middle result after)
    (trace_eq : middle.trace = state.trace) : Tended backend audience state result after where
  calls := by
    rw [← trace_eq]
    exact tended.calls
  attends := tended.attends
  noticed := tended.noticed

/-- What stops or interrupts an action does so to whatever it is part of. -/
theorem cast {result' : Except Stop (Option β)}
    (tended : Tended backend audience state result after)
    (same : result'.map Option.isSome = result.map Option.isSome) :
    Tended backend audience state result' after where
  calls := tended.calls
  attends is_ok := by
    refine tended.attends ?_
    cases result <;> cases result' <;> first | rfl | contradiction
  noticed interrupted := by
    rw [interrupted] at same
    refine tended.noticed ?_
    rcases result with stop | _ | value
    · contradiction
    · rfl
    · cases same

theorem call {call : Call}
    (trace_eq : middle.trace.toList = state.trace.toList ++ [.call call])
    (other : call.runs = false) (tended : Tended backend audience middle result after) :
    Tended backend audience state result after where
  calls := by
    obtain ⟨calls, calls_eq, others⟩ := tended.calls
    exact ⟨call :: calls, by simp [calls_eq, trace_eq], List.forall_mem_cons.mpr ⟨other, others⟩⟩
  attends := tended.attends
  noticed := tended.noticed

theorem trans {result' : Except Stop (Option β)}
    (tended : Tended backend audience state result middle)
    (tended' : Tended backend audience middle result' after) :
    Tended backend audience state result' after where
  calls := by
    obtain ⟨calls, calls_eq, others⟩ := tended.calls
    obtain ⟨calls', calls_eq', others'⟩ := tended'.calls
    exact ⟨calls ++ calls', by simp [calls_eq, calls_eq'],
      List.forall_mem_append.mpr ⟨others, others'⟩⟩
  attends := tended'.attends
  noticed := tended'.noticed

end Tended

namespace Interruptible

variable {α β : Type} {backend : Backend} {audience : Audience}

theorem ensures_bind {action : Interruptible α} {next : α → Interruptible β} {state : RunState}
    {post : Except Stop (Option β) → RunState → Prop}
    (first : Run.Ensures action.run state fun result middle =>
      match result with
      | .ok (some value) => Run.Ensures (next value).run middle post
      | .ok none => post (.ok none) middle
      | .error stop => post (.error stop) middle) :
    Run.Ensures (action >>= next : Interruptible β).run state post := by
  rw [OptionT.run_bind]
  refine Run.ensures_bind.mpr (first.mono fun result middle holds => ?_)
  rcases result with stop | _ | value <;> exact holds

theorem ensures_look_bind {next : Bool → Interruptible α} {state : RunState}
    {post : Except Stop (Option α) → RunState → Prop} :
    Run.Ensures (do next (← Run.look) : Interruptible α).run state post ↔
      Run.Ensures (next state.cancelled).run { state with toAudience := state.looked } post :=
  Iff.rfl

/-- The action only opens and closes sessions. -/
def Tends (backend : Backend) (audience : Audience) (action : Interruptible α) : Prop :=
  ∀ state, Attends backend audience false state →
    Run.Ensures action.run state (Tended backend audience state)

theorem tends_pure (value : α) : Tends backend audience (pure value) :=
  fun _ attends => .of_trace_eq rfl (fun _ => attends) nofun

theorem tends_abandon (stop : Stop) : Tends backend audience (abandon stop : Interruptible α) :=
  fun _ _ => .of_trace_eq rfl nofun nofun

theorem tends_bind {action : Interruptible α} {next : α → Interruptible β}
    (first : Tends backend audience action) (rest : ∀ value, Tends backend audience (next value)) :
    Tends backend audience (action >>= next) := by
  intro state attends
  refine ensures_bind ((first state attends).mono fun result middle tended => ?_)
  rcases result with stop | _ | value
  · exact tended.cast rfl
  · exact tended.cast rfl
  · exact (rest value middle (tended.attends rfl)).mono fun _ _ => tended.trans

theorem tends_get_bind {next : RunState → Interruptible α}
    (rest : ∀ state, Tends backend audience (next state)) :
    Tends backend audience (get >>= next) :=
  fun state attends => ensures_get_bind.mpr (rest state state attends)

theorem tends_modify_bind {change : RunState → RunState} {next : Interruptible α}
    (trace_eq : ∀ state, (change state).trace = state.trace)
    (attends : ∀ state, Attends backend audience false state →
      Attends backend audience false (change state))
    (rest : Tends backend audience next) : Tends backend audience (do modify change; next) := by
  intro state attends_state
  refine ensures_modify_bind.mpr ((rest _ (attends state attends_state)).mono ?_)
  exact fun _ _ tended => tended.behind (trace_eq state)

/-- A turn of the engine during a call.  It does nothing but notice a request. -/
def Turns (backend : Backend) (audience : Audience) (turn : Interruptible Unit) : Prop :=
  ∀ asks state, Attends backend audience asks state →
    Run.Ensures turn.run state fun result after =>
      after.trace = state.trace ∧
        match result with
        | .ok (some ()) => Attends backend audience asks after
        | .ok none => Attends backend audience false after ∧ after.patience = some 0
        | .error _ => False

theorem turns_pure : Turns backend audience (return) :=
  fun _ _ attends => ⟨rfl, attends⟩

theorem turns_checkpoint : Turns backend audience checkpoint := by
  intro asks state attends
  refine ensures_look_bind.mpr ?_
  cases noticed : state.cancelled with
  | true =>
      have used_up := RunState.looked_of_cancelled noticed
      exact ⟨rfl, attends.look.interrupted used_up, used_up⟩
  | false => exact ⟨rfl, attends.look⟩

theorem tends_checkpoint : Tends backend audience checkpoint := by
  intro state attends
  refine (turns_checkpoint false state attends).mono fun result after ⟨trace_eq, holds⟩ => ?_
  rcases result with stop | _ | _
  · exact holds.elim
  · exact .of_trace_eq trace_eq (fun _ => holds.1) fun _ => holds.2
  · exact .of_trace_eq trace_eq (fun _ => holds) nofun

/-- Waiting for a call that sends no notices adds nothing to the trace, and a call that returns or
is interrupted has made its requests. -/
theorem tended_await {turn : Interruptible Unit} (turns : Turns backend audience turn)
    {behavior : Behavior} {state : RunState}
    (attends : Attends backend audience behavior.asks state) :
    Run.Ensures (await turn behavior).run state (Tended backend audience state) := by
  have after_turn {next : Interruptible (Except SessionError (Option Nat))} {asks : Bool}
      {state : RunState} (attends : Attends backend audience asks state)
      (rest : ∀ middle, Attends backend audience asks middle →
        Run.Ensures next.run middle (Tended backend audience middle)) :
      Run.Ensures (do turn; next : Interruptible _).run state (Tended backend audience state) := by
    refine ensures_bind ((turns asks state attends).mono fun result middle ⟨trace_eq, holds⟩ => ?_)
    rcases result with stop | _ | _
    · exact holds.elim
    · exact .of_trace_eq trace_eq (fun _ => holds.1) fun _ => holds.2
    · exact (rest middle holds).mono fun _ _ tended => tended.behind trace_eq
  induction behavior generalizing state with
  | finish outcome => exact .of_trace_eq rfl (fun _ => attends) nofun
  | stall => exact after_turn attends fun middle attends => tends_abandon .stalled middle attends
  | yield next induction => exact after_turn attends fun middle attends => induction attends
  | notify notice next induction => exact induction attends
  | cancel next induction =>
      exact (induction (attends.requestCancel next.asks)).mono fun _ _ tended => tended.behind rfl
  | dropReceiver next induction =>
      have unheard : Attends backend audience next.asks { state with room := some 0 } :=
        attends.of_eq rfl rfl rfl rfl rfl
      exact (induction unheard).mono fun _ _ tended => tended.behind rfl

/-- A call that sends no notices is made and waited for. -/
theorem tended_call {behavior : Behavior} {turn : Interruptible Unit}
    {next : Except SessionError (Option Nat) → Interruptible α} {state after : RunState}
    (turns : Turns backend audience turn) (call : Call) (other : call.runs = false)
    (trace_eq : after.trace.toList = state.trace.toList ++ [.call call])
    (behavior_eq : backend.behavior? state.trace.toList call = some behavior)
    (attends : Attends backend audience
      ((backend.behavior? state.trace.toList call).any Behavior.asks) after)
    (rest : ∀ outcome, Tends backend audience (next outcome)) :
    Run.Ensures (do next (← await turn behavior) : Interruptible α).run after
      (Tended backend audience state) := by
  rw [behavior_eq] at attends
  refine ensures_bind ((tended_await turns attends).mono fun result middle tended => ?_)
  have tended := tended.call trace_eq other
  rcases result with stop | _ | outcome
  · exact tended.cast rfl
  · exact tended.cast rfl
  · exact (rest outcome middle (tended.attends rfl)).mono fun _ _ => tended.trans

end Interruptible

namespace Slot

open Interruptible (Tends Turns)

variable {policy : Retry.Policy} {backend : Backend} {audience : Audience}

theorem tends_close {turn : Interruptible Unit} (turns : Turns backend audience turn) :
    Tends backend audience (close backend turn) := by
  intro state attends
  unfold close
  refine Interruptible.ensures_get_bind.mpr ?_
  split
  · exact Interruptible.tends_pure () state attends
  · rename_i session held
    refine Interruptible.ensures_modify_bind.mpr ?_
    split
    · refine Interruptible.ensures_get_bind.mpr (Interruptible.ensures_record_bind.mpr
        (Interruptible.ensures_modify_bind.mpr ?_))
      refine Interruptible.tended_call turns (.close session.number) rfl Array.toList_push ?_
        (attends.call _ Array.toList_push rfl rfl rfl rfl) fun _ => Interruptible.tends_pure ()
      rw [Backend.behavior?, attends.closings_eq]
    · have discarded := attends.discard session.number
      exact Tended.call Array.toList_push rfl (Interruptible.tends_pure () _ discarded)

theorem tends_attempt (target : Option String) (number : UInt32) :
    Tends backend audience ((opening backend target).attempt number) := by
  intro state attends
  refine Interruptible.ensures_get_bind.mpr (Interruptible.ensures_record_bind.mpr
    (Interruptible.ensures_modify_bind.mpr ?_))
  refine Interruptible.tended_call Interruptible.turns_checkpoint (.openSession target) rfl
    Array.toList_push ?_ (attends.call _ Array.toList_push rfl rfl rfl rfl) fun outcome => ?_
  · rw [Backend.behavior?, attends.openings_eq]
  · cases outcome with
    | error failure => exact Interruptible.tends_pure _
    | ok rows =>
        exact Interruptible.tends_modify_bind (fun _ => rfl)
          (fun _ attends => attends.of_eq rfl rfl rfl rfl rfl)
          (Interruptible.tends_get_bind fun _ => Interruptible.tends_pure _)

theorem tends_observe_bind {α : Type} {target : Option String} {progress : Retry.Progress}
    {next : Interruptible α} (rest : Tends backend audience next) :
    Tends backend audience (do (opening backend target).observe progress; next) :=
  Interruptible.tends_bind (Interruptible.tends_pure ()) fun _ => rest

theorem tends_runFrom (target : Option String) (tracker : Retry.Tracker) :
    Tends backend audience (policy.runFrom (opening backend target) tracker) := by
  induction remaining_eq : tracker.remaining using Nat.strongRecOn generalizing tracker with
  | ind remaining induction =>
      unfold Retry.Policy.runFrom
      split
      · exact Interruptible.tends_pure none
      · rename_i started start_eq
        refine tends_observe_bind (Interruptible.tends_bind (tends_attempt target _) ?_)
        rintro (failure | session)
        · refine tends_observe_bind ?_
          cases policy.afterFailure started.attempts failure with
          | retry delay =>
              refine tends_observe_bind
                (Interruptible.tends_bind Interruptible.tends_checkpoint fun _ => ?_)
              have shorter := Retry.Tracker.remaining_of_start? start_eq
              exact induction _ (remaining_eq ▸ shorter) _ rfl
          | giveUp exhausted =>
              cases exhausted with
              | true => exact tends_observe_bind (Interruptible.tends_pure _)
              | false => exact Interruptible.tends_pure _
        · exact tends_observe_bind (Interruptible.tends_pure _)

/-- Acquiring a session only opens and closes sessions. -/
theorem tends_acquire (target : Option String) :
    Tends backend audience (acquire policy backend target) := by
  refine Interruptible.tends_bind Interruptible.tends_checkpoint fun _ => ?_
  refine Interruptible.tends_get_bind fun state => ?_
  dsimp only
  split
  · exact Interruptible.tends_pure _
  · refine Interruptible.tends_bind (tends_close Interruptible.turns_checkpoint) fun _ => ?_
    refine Interruptible.tends_bind (tends_runFrom target {}) ?_
    rintro (_ | failure | session)
    · exact Interruptible.tends_abandon _
    · exact Interruptible.tends_pure _
    · exact Interruptible.tends_modify_bind (fun _ => rfl)
        (fun _ attends => attends.of_eq rfl rfl rfl rfl rfl) (Interruptible.tends_pure _)

end Slot

end Engine
end SqlScript
