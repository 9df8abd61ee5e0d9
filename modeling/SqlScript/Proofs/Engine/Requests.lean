import SqlScript.Proofs.Engine.Attempts

/-!
# Requests to cancel a run

A run may be asked to be cancelled before it starts, by those who follow it, and during any of its
calls.  Whether a call asks for it is told by the behaviour of the call; whether the request is
noticed during the call depends on the turns that are left to the engine.
-/

namespace SqlScript
namespace Engine

/-- How the engine comes to the end of its wait for a call. -/
inductive CallEnding where
  | returned (outcome : Except SessionError (Option Nat))
  /-- A request to cancel the run is noticed at a turn of the engine. -/
  | interrupted
  /-- The call does not return. -/
  | stalled

namespace Behavior

/-- The call asks for the run to be cancelled. -/
def asks : Behavior → Bool
  | finish _ | stall => false
  | yield next | notify _ next | dropReceiver next => next.asks
  | cancel _ => true

/-- How the wait for the call ends if the engine has `patience` more turns at which it finds no
request, unless the call makes one. -/
def ending : Behavior → (patience : Option Nat) → CallEnding
  | finish outcome, _ => .returned outcome
  | stall, patience => if patience = some 0 then .interrupted else .stalled
  | yield next, patience =>
      if patience = some 0 then .interrupted else next.ending (patience.map (· - 1))
  | notify _ next, patience | dropReceiver next, patience => next.ending patience
  | cancel next, _ => next.ending (some 0)

/-- The notices that are sent before the wait for the call ends. -/
def heard : Behavior → (patience : Option Nat) → List Notice
  | finish _, _ | stall, _ => []
  | yield next, patience =>
      if patience = some 0 then [] else next.heard (patience.map (· - 1))
  | notify notice next, patience => notice :: next.heard patience
  | cancel next, _ => next.heard (some 0)
  | dropReceiver next, patience => next.heard patience

/-- A call that is not interrupted is heard to its end, and one that is is heard up to one of its
turns. -/
theorem heard_of_ending (behavior : Behavior) (patience : Option Nat) :
    match behavior.ending patience with
    | .returned outcome =>
        behavior.outcome? = some outcome ∧ behavior.heard patience = behavior.notices
    | .interrupted => behavior.heard patience ∈ behavior.turns
    | .stalled => behavior.outcome? = none ∧ behavior.heard patience = behavior.notices := by
  induction behavior generalizing patience with
  | finish outcome => exact ⟨rfl, rfl⟩
  | stall =>
      by_cases used_up : patience = some 0
      · simp [ending, heard, turns, used_up]
      · simp [ending, heard, notices, outcome?, used_up]
  | yield next induction =>
      by_cases used_up : patience = some 0
      · simp [ending, heard, turns, used_up]
      · have behind := induction (patience.map (· - 1))
        simp only [ending, heard, turns, notices, outcome?, if_neg used_up]
        split at behind
        · exact behind
        · exact List.mem_cons_of_mem _ behind
        · exact behind
  | notify notice next induction =>
      have behind := induction patience
      simp only [ending, heard, turns, notices, outcome?]
      split at behind
      · exact ⟨behind.1, congrArg _ behind.2⟩
      · exact List.mem_map_of_mem behind
      · exact ⟨behind.1, congrArg _ behind.2⟩
  | cancel next induction => exact induction (some 0)
  | dropReceiver next induction => exact induction patience

theorem of_returned {behavior : Behavior} {patience : Option Nat}
    {outcome : Except SessionError (Option Nat)}
    (ends : behavior.ending patience = .returned outcome) :
    behavior.outcome? = some outcome ∧ behavior.heard patience = behavior.notices := by
  have heard := behavior.heard_of_ending patience
  rwa [ends] at heard

theorem of_stalled {behavior : Behavior} {patience : Option Nat}
    (ends : behavior.ending patience = .stalled) :
    behavior.outcome? = none ∧ behavior.heard patience = behavior.notices := by
  have heard := behavior.heard_of_ending patience
  rwa [ends] at heard

/-- A request that the call itself makes before one of its turns is noticed, however much patience
is left. -/
theorem ending_of_interrupted {behavior : Behavior}
    (interrupted : behavior.ending none = .interrupted) (patience : Option Nat) :
    behavior.ending patience = .interrupted := by
  induction behavior generalizing patience with
  | finish outcome => contradiction
  | stall => simp [ending] at interrupted
  | yield next induction =>
      rw [ending]
      split
      · rfl
      · exact induction interrupted _
  | notify notice next induction => exact induction interrupted patience
  | cancel next induction => exact interrupted
  | dropReceiver next induction => exact induction interrupted patience

end Behavior

namespace Trace

/-- The sessions that were closed by a call, in order. -/
def closed (trace : List Entry) : List Nat :=
  trace.filterMap fun entry =>
    match entry with
    | .call (.close session) => some session
    | _ => none

/-- The property holds of every entry with what is before it and what is behind it. -/
def Each (holds : List Entry → Entry → List Entry → Prop) (trace : List Entry) : Prop :=
  ∀ front entry back, trace = front ++ entry :: back → holds front entry back

variable {holds holds' : List Entry → Entry → List Entry → Prop} {trace more : List Entry}

theorem Each.nil : Each holds [] := by
  intro front entry back empty
  simp at empty

theorem Each.append (each : Each holds trace)
    (kept : ∀ front entry back, holds front entry back → holds' front entry (back ++ more))
    (each_more : Each (fun front => holds' (trace ++ front)) more) :
    Each holds' (trace ++ more) := by
  intro front entry back trace_eq
  rcases List.append_eq_append_iff.mp trace_eq with ⟨inner, rfl, more_eq⟩ | ⟨inner, rfl, back_eq⟩
  · exact each_more inner entry back more_eq
  · cases inner with
    | nil =>
        simpa using each_more [] entry back back_eq.symm
    | cons head inner =>
        obtain ⟨rfl, rfl⟩ := List.cons.inj back_eq
        exact kept front entry inner (each front entry inner rfl)

end Trace

open Trace

/-- What happens during a call that is made after `front`. -/
def Backend.behavior? (backend : Backend) (front : List Entry) : Call → Option Behavior
  | .openSession _ => some (backend.opening (wanted front).length)
  | .execute _ _ => some (backend.executing (executed front).length)
  | .close _ => some (backend.closing (closed front).length)
  | .discard _ => none

/-- A call that is made after `front` asks for the run to be cancelled. -/
def Backend.requests (backend : Backend) (front : List Entry) (call : Call) : Prop :=
  (backend.behavior? front call).any Behavior.asks = true

/-- One of the calls asks for the run to be cancelled. -/
def Trace.Asked (backend : Backend) (trace : List Entry) : Prop :=
  ∃ front call back, trace = front ++ .call call :: back ∧ backend.requests front call

/-- The run is asked to be cancelled before it starts or during one of its calls. -/
def Trace.Requested (backend : Backend) (audience : Audience) (trace : List Entry) : Prop :=
  audience.patience = some 0 ∨ Asked backend trace

/-- Those who follow the run ask for it to be cancelled sooner or later, or one of its calls
does. -/
def Trace.Petitioned (backend : Backend) (audience : Audience) (trace : List Entry) : Prop :=
  audience.patience ≠ none ∨ Asked backend trace

/-- A batch is submitted, or an instance begins. -/
def Entry.begins : Entry → Bool
  | .call (.execute _ _) | .event (.batchStarted _ _ _ _) => true
  | _ => false

/-- The run is said to be cancelled. -/
def Entry.cancels : Entry → Bool
  | .event (.scriptCancelled _) => true
  | _ => false

/-- Nothing begins once the run is asked to be cancelled, and it is not cancelled unless it was
asked to be. -/
structure Trace.Obeys (backend : Backend) (audience : Audience) (trace : List Entry) : Prop where
  begins : Each (fun front entry _ => entry.begins = true → ¬Requested backend audience front) trace
  cancels :
    Each (fun front entry _ => entry.cancels = true → Petitioned backend audience front) trace

/-- Behind `trace` nothing begins with the entries in `more`, and the run is not cancelled in them
unless it was asked to be. -/
structure Trace.Trails (backend : Backend) (audience : Audience) (trace more : List Entry) :
    Prop where
  none_begins : ∀ entry ∈ more, entry.begins = false
  petitioned : Each (fun front entry _ => entry.cancels = true →
    Petitioned backend audience (trace ++ front)) more

namespace Trace

variable {backend : Backend} {audience : Audience} {trace more : List Entry}
  {holds : List Entry → Entry → Prop}

theorem Asked.append (asked : Asked backend trace) (more : List Entry) :
    Asked backend (trace ++ more) := by
  obtain ⟨front, call, back, rfl, requests⟩ := asked
  exact ⟨front, call, back ++ more, by simp, requests⟩

theorem asked_concat {entry : Entry} :
    Asked backend (trace ++ [entry]) ↔
      Asked backend trace ∨ ∃ call, entry = .call call ∧ backend.requests trace call := by
  constructor
  · rintro ⟨front, call, back, trace_eq, requests⟩
    rcases List.eq_nil_or_concat back with rfl | ⟨inner, last, rfl⟩
    · obtain ⟨rfl, entry_eq⟩ := List.append_inj' trace_eq rfl
      exact .inr ⟨call, List.singleton_inj.mp entry_eq, requests⟩
    · rw [List.concat_eq_append, ← List.cons_append, ← List.append_assoc] at trace_eq
      exact .inl ⟨front, call, inner, (List.append_inj' trace_eq rfl).1, requests⟩
  · rintro (asked | ⟨call, rfl, requests⟩)
    · exact asked.append _
    · exact ⟨trace, call, [], rfl, requests⟩

/-- Events ask for nothing. -/
theorem asked_append_events {events : List Event} :
    Asked backend (trace ++ events.map .event) ↔ Asked backend trace := by
  induction events generalizing trace with
  | nil => rw [List.map_nil, List.append_nil]
  | cons event events induction =>
      rw [List.map_cons, ← List.singleton_append, ← List.append_assoc, induction, asked_concat]
      simp

theorem Requested.append (requested : Requested backend audience trace) (more : List Entry) :
    Requested backend audience (trace ++ more) :=
  requested.imp_right fun asked => asked.append more

theorem Petitioned.append (petitioned : Petitioned backend audience trace) (more : List Entry) :
    Petitioned backend audience (trace ++ more) :=
  petitioned.imp_right fun asked => asked.append more

/-- A session that is let go asks for nothing. -/
theorem Petitioned.of_discard {session : Nat}
    (petitioned : Petitioned backend audience (trace ++ [.call (.discard session)])) :
    Petitioned backend audience trace := by
  refine petitioned.imp_right fun asked => (asked_concat.mp asked).resolve_right ?_
  rintro ⟨call, call_eq, requests⟩
  obtain rfl := Entry.call.inj call_eq
  contradiction

theorem Each.front (each : Each (fun front entry _ => holds front entry) (trace ++ more)) :
    Each (fun front entry _ => holds front entry) trace := by
  rintro front entry back rfl
  exact each front entry (back ++ more) (by simp)

theorem Each.singleton {entry : Entry} (holds_entry : holds [] entry) :
    Each (fun front entry _ => holds front entry) [entry] := by
  intro front other back single
  obtain ⟨rfl, rfl⟩ : front = [] ∧ entry = other := by
    cases front <;> simp_all
  exact holds_entry

/-- Entries with which nothing begins and the run is not cancelled. -/
theorem Trails.of_calm (calm : ∀ entry ∈ more, entry.begins = false ∧ entry.cancels = false) :
    Trails backend audience trace more where
  none_begins entry member := (calm entry member).1
  petitioned := by
    rintro front entry back rfl cancels
    rw [(calm entry (by simp)).2] at cancels
    contradiction

theorem Trails.append {more' : List Entry} (trails : Trails backend audience trace more)
    (trails' : Trails backend audience (trace ++ more) more') :
    Trails backend audience trace (more ++ more') where
  none_begins := List.forall_mem_append.mpr ⟨trails.none_begins, trails'.none_begins⟩
  petitioned := by
    refine Each.append trails.petitioned (fun _ _ _ => id) ?_
    intro front entry back more_eq cancels
    rw [← List.append_assoc]
    exact trails'.petitioned front entry back more_eq cancels

theorem Trails.singleton {entry : Entry} (begins : entry.begins = false)
    (petitioned : entry.cancels = true → Petitioned backend audience trace) :
    Trails backend audience trace [entry] where
  none_begins := List.forall_mem_singleton.mpr begins
  petitioned := .singleton fun cancels => (petitioned cancels).append []

theorem Obeys.nil : Obeys backend audience [] where
  begins := .nil
  cancels := .nil

theorem Obeys.front (obeys : Obeys backend audience (trace ++ more)) :
    Obeys backend audience trace where
  begins := obeys.begins.front
  cancels := obeys.cancels.front

theorem Obeys.append (obeys : Obeys backend audience trace)
    (trails : Trails backend audience trace more) : Obeys backend audience (trace ++ more) where
  begins := by
    refine Each.append obeys.begins (fun _ _ _ => id) fun front entry back more_eq begins => ?_
    have quiet := trails.none_begins entry (by simp [more_eq])
    simp [quiet] at begins
  cancels := Each.append obeys.cancels (fun _ _ _ => id) trails.petitioned

theorem Obeys.concat {entry : Entry} (obeys : Obeys backend audience trace)
    (unasked : ¬Requested backend audience trace) (goes_on : entry.cancels = false) :
    Obeys backend audience (trace ++ [entry]) where
  begins := by
    refine Each.append obeys.begins (fun _ _ _ => id) (Each.singleton fun _ => ?_)
    rwa [List.append_nil]
  cancels := by
    refine Each.append obeys.cancels (fun _ _ _ => id) (Each.singleton fun cancels => ?_)
    rw [goes_on] at cancels
    contradiction

end Trace
end Engine
end SqlScript
