import SqlScript.Proofs.Engine.Hearing

/-!
# What becomes of submitted batches

Behind the notices of a call that runs a batch, a run tells how the call ended and what became of
the instance.  What was told of a call stands when the run goes on; where the run stops because of
the call, nothing more is told.
-/

namespace SqlScript
namespace Engine

open Trace

namespace Instance

/-- The entries that pass notices on. -/
def told (target : Instance) (notices : List Notice) : List Entry :=
  (notices.map target.eventOf).map .event

/-- The failure of a run whose backend cancels a batch without being asked. -/
def refusalError (target : Instance) : RunError :=
  .internal "backend cancelled a batch without a cancel request" target.batch.index
    target.batch.span .awaiting

end Instance

/-- Behind `trace`, `events` were told, and nothing began. -/
def Trace.Adds (backend : Backend) (audience : Audience) (trace trace' : List Entry)
    (events : List Event) : Prop :=
  ∃ more, trace' = trace ++ more ∧ Trails backend audience trace more ∧
    more.filterMap Entry.event? = events

namespace Trace.Adds

variable {backend : Backend} {audience : Audience} {target : Instance}
  {trace trace' trace'' : List Entry} {events events' : List Event}

theorem refl (trace : List Entry) : Adds backend audience trace trace [] :=
  ⟨[], by simp, .of_calm (by simp), rfl⟩

theorem trans (adds : Adds backend audience trace trace' events)
    (adds' : Adds backend audience trace' trace'' events') :
    Adds backend audience trace trace'' (events ++ events') := by
  obtain ⟨more, rfl, trails, rfl⟩ := adds
  obtain ⟨more', rfl, trails', rfl⟩ := adds'
  exact ⟨more ++ more', List.append_assoc _ _ _, trails.append trails', List.filterMap_append⟩

theorem event {event : Event} (trails : Trails backend audience trace [.event event]) :
    Adds backend audience trace (trace ++ [.event event]) [event] :=
  ⟨[.event event], rfl, trails, rfl⟩

theorem calls {calls : List Call} (others : ∀ call ∈ calls, call.runs = false)
    (trace : List Entry) : Adds backend audience trace (trace ++ calls.map .call) [] := by
  refine ⟨calls.map .call, rfl, .of_calm fun entry member => ?_, ?_⟩
  · obtain ⟨call, call_mem, rfl⟩ := List.mem_map.mp member
    have other := others call call_mem
    cases call <;> first | exact ⟨rfl, rfl⟩ | contradiction
  · simp [List.filterMap_map, Function.comp_def, Entry.event?]

theorem obeys (adds : Adds backend audience trace trace' events)
    (obeys : Obeys backend audience trace) : Obeys backend audience trace' := by
  obtain ⟨more, rfl, trails, -⟩ := adds
  exact obeys.append trails

theorem petitioned (adds : Adds backend audience trace trace' events)
    (petitioned : Petitioned backend audience trace) : Petitioned backend audience trace' := by
  obtain ⟨more, rfl, -, -⟩ := adds
  exact petitioned.append more

theorem underway (adds : Adds backend audience trace trace' events)
    (inside : ∀ event ∈ events, (Entry.event event).borders = false)
    (underway : ∃ before since, Underway trace before target since) :
    ∃ before since, Underway trace' before target since := by
  obtain ⟨more, rfl, -, rfl⟩ := adds
  obtain ⟨before, since, underway⟩ := underway
  refine ⟨before, _, underway.append fun entry member => ?_⟩
  cases entry with
  | call call => rfl
  | event event => exact inside event (List.mem_filterMap.mpr ⟨_, member, rfl⟩)

end Trace.Adds

/-- What a run tells behind the notices of a call that ran the batch of `target` and ended in this
way.  The result of the run is known where the run stops because of the call; as long as it goes on,
its result is `.ok .running`. -/
inductive Sequel (scenario : Scenario) (target : Instance) (call : Nat)
    (result : Except Stop Phase) : CallEnding → List Event → Prop
  | settled {final : Except SessionError (Option Nat)} {events : List Event} :
      final ≠ .error .cancelled →
        target.closing final ++ [target.verdict (BatchResult.ofCall
            (scenario.backend.executing call).notices final).classify] <+: events →
            Sequel scenario target call result (.returned final) events
  | retried {setback : Setback} {events : List Event} :
      setback.failure ≠ .cancelled → (scenario.backend.executing call).notices = [] →
        [target.announcement setback] <+: events →
          Sequel scenario target call result (.returned (.error setback.failure)) events
  | refused :
      result = .error (.failed target.refusalError) →
        Sequel scenario target call result (.returned (.error .cancelled))
          [.scriptHalted target.batch.index target.refusal]
  | interrupted :
      result = .ok .cancelled →
        Sequel scenario target call result .interrupted [.scriptCancelled target.batch.index]
  | stalled : result = .error .stalled → Sequel scenario target call result .stalled []

/-- What was told of a call stands when the run goes on. -/
theorem Sequel.goOn {scenario : Scenario} {target : Instance} {call : Nat} {ending : CallEnding}
    {events : List Event} (sequel : Sequel scenario target call (.ok .running) ending events)
    (result : Except Stop Phase) (more : List Event) :
    Sequel scenario target call result ending (events ++ more) := by
  cases sequel with
  | settled not_cancelled told => exact .settled not_cancelled (told.trans (List.prefix_append _ _))
  | retried not_cancelled quiet told =>
      exact .retried not_cancelled quiet (told.trans (List.prefix_append _ _))
  | refused stopped | interrupted stopped | stalled stopped => simp at stopped

/-- What a run with this result tells of the batch that was submitted between `front` and `back`. -/
def Heard (scenario : Scenario) (audience : Audience) (result : Except Stop Phase)
    (front : List Entry) (text : String) (back : List Entry) : Prop :=
  let behavior := scenario.backend.executing (executed front).length
  ∃ target ∈ scenario.script.instances, (∃ before since, Underway front before target since) ∧
    text = target.batch.text ∧
      ∃ patience rest, audience.Leaves patience ∧
        back = target.told (behavior.heard patience) ++ rest ∧
          Sequel scenario target (executed front).length result (behavior.ending patience)
            (rest.filterMap Entry.event?)

/-- Nothing begins after a request, and, as long as events are received, every batch that was
submitted is heard out. -/
structure Trace.Sound (scenario : Scenario) (audience : Audience) (result : Except Stop Phase)
    (trace : List Entry) : Prop where
  obeys : Obeys scenario.backend audience trace
  hears : result ≠ .error (.failed .receiverGone) →
    Each (fun front entry back => ∀ session text, entry = .call (.execute session text) →
      Heard scenario audience result front text back) trace

variable {scenario : Scenario} {audience : Audience} {result result' : Except Stop Phase}
  {trace front more : List Entry} {target : Instance}

theorem Heard.append {text : String} {back : List Entry}
    (heard : Heard scenario audience result front text back)
    (grows : ∀ target call ending events, Sequel scenario target call result ending events →
      Sequel scenario target call result' ending (events ++ more.filterMap Entry.event?)) :
    Heard scenario audience result' front text (back ++ more) := by
  obtain ⟨target, known, underway, text_eq, patience, rest, leaves, rfl, sequel⟩ := heard
  refine ⟨target, known, underway, text_eq, patience, rest ++ more, leaves,
    List.append_assoc _ _ _, ?_⟩
  rw [List.filterMap_append]
  exact grows _ _ _ _ sequel

namespace Trace.Sound

theorem start : Sound scenario audience result [] where
  obeys := .nil
  hears _ := Each.nil

theorem of_obeys (obeys : Obeys scenario.backend audience trace) :
    Sound scenario audience (.error (.failed .receiverGone)) trace where
  obeys := obeys
  hears kept := absurd rfl kept

/-- Entries are added with which nothing begins. -/
theorem extend (sound : Sound scenario audience result trace)
    (trails : Trails scenario.backend audience trace more)
    (kept : result' ≠ .error (.failed .receiverGone) → result ≠ .error (.failed .receiverGone))
    (grows : ∀ target call ending events, Sequel scenario target call result ending events →
      Sequel scenario target call result' ending (events ++ more.filterMap Entry.event?)) :
    Sound scenario audience result' (trace ++ more) where
  obeys := sound.obeys.append trails
  hears received := by
    refine Each.append (sound.hears (kept received)) ?_ ?_
    · intro front entry back holds session text entry_eq
      exact (holds session text entry_eq).append grows
    · rintro front entry back rfl session text rfl
      have begins := trails.none_begins (.call (.execute session text)) (by simp)
      contradiction

/-- An instance begins where no request has been made. -/
theorem begin (sound : Sound scenario audience (.ok .running) trace)
    (unasked : ¬Requested scenario.backend audience trace) (target : Instance) :
    Sound scenario audience (.ok .running) (trace ++ [.event target.started]) where
  obeys := sound.obeys.concat unasked rfl
  hears received := by
    refine Each.append (sound.hears received) ?_ ?_
    · intro front entry back holds session text entry_eq
      exact (holds session text entry_eq).append fun _ _ _ _ sequel => sequel.goOn _ _
    · rintro front entry back single session text rfl
      simp [List.cons_eq_append_iff] at single

end Trace.Sound

theorem Instance.trails_told (target : Instance) (notices : List Notice) {backend : Backend}
    {audience : Audience} : Trails backend audience trace (target.told notices) := by
  refine .of_calm fun entry member => ?_
  rw [told, List.map_map] at member
  obtain ⟨notice, -, rfl⟩ := List.mem_map.mp member
  cases notice <;> exact ⟨rfl, rfl⟩

/-- The trace ends with a call that ran the batch of `target` behind `front`, where no request had
been made, and with the notices that were heard before the wait for it ended. -/
structure Awaited (scenario : Scenario) (audience : Audience) (target : Instance)
    (front : List Entry) (patience : Option Nat) (trace : List Entry) : Prop where
  sound : Sound scenario audience (.ok .running) front
  unasked : ¬Requested scenario.backend audience front
  known : target ∈ scenario.script.instances
  underway : ∃ before since, Underway front before target since
  leaves : audience.Leaves patience
  trace_eq : ∃ session, trace = front ++ [.call (.execute session target.batch.text)] ++
    target.told ((scenario.backend.executing (executed front).length).heard patience)

theorem Awaited.obeys {patience : Option Nat}
    (awaited : Awaited scenario audience target front patience trace) :
    Obeys scenario.backend audience trace := by
  obtain ⟨session, rfl⟩ := awaited.trace_eq
  exact (awaited.sound.obeys.concat awaited.unasked rfl).append (target.trails_told _)

/-- The instance is still being run. -/
theorem Awaited.still_underway {patience : Option Nat}
    (awaited : Awaited scenario audience target front patience trace) :
    ∃ before since, Underway trace before target since := by
  obtain ⟨before, since, underway⟩ := awaited.underway
  obtain ⟨session, rfl⟩ := awaited.trace_eq
  refine ⟨before, _, (underway.append ?_).append ?_⟩
  · simp [Entry.borders]
  · intro entry member
    rw [Instance.told, List.map_map] at member
    obtain ⟨notice, -, rfl⟩ := List.mem_map.mp member
    exact target.borders_eventOf notice

/-- Once it was told what became of the batch, all batches have been heard out. -/
theorem Awaited.sound_append {patience : Option Nat}
    (awaited : Awaited scenario audience target front patience trace)
    (trails : Trails scenario.backend audience trace more)
    (sequel : Sequel scenario target (executed front).length result
      ((scenario.backend.executing (executed front).length).ending patience)
      (more.filterMap Entry.event?)) :
    Sound scenario audience result (trace ++ more) := by
  constructor
  · exact awaited.obeys.append trails
  · intro received
    obtain ⟨session, rfl⟩ := awaited.trace_eq
    have none_begins := (Trails.append (target.trails_told _) trails).none_begins
    rw [List.append_assoc, List.append_assoc]
    refine Each.append (awaited.sound.hears (by simp)) ?_ ?_
    · intro before entry back holds session text entry_eq
      exact (holds session text entry_eq).append fun _ _ _ _ sequel => sequel.goOn _ _
    · rintro (_ | ⟨first, inner⟩) entry back more_eq number text rfl
      · obtain ⟨same, rfl⟩ := List.cons.inj more_eq
        obtain ⟨rfl, rfl⟩ := Call.execute.inj (Entry.call.inj same)
        rw [List.append_nil]
        exact ⟨target, awaited.known, awaited.underway, rfl, patience, more, awaited.leaves, rfl,
          sequel⟩
      · have inner_eq : _ ++ more = inner ++ _ := (List.cons.inj more_eq).2
        rw [inner_eq] at none_begins
        have begins := none_begins (.call (.execute number text)) (by simp)
        contradiction

namespace Trace.Adds

variable {trace' : List Entry} {events : List Event}

/-- The run goes on, or stops for a reason that is not a call that runs a batch. -/
theorem goOn (adds : Adds scenario.backend audience trace trace' events)
    (sound : Sound scenario audience (.ok .running) trace) (result : Except Stop Phase) :
    Sound scenario audience result trace' := by
  obtain ⟨more, rfl, trails, -⟩ := adds
  exact sound.extend trails (fun _ => by simp) fun _ _ _ _ sequel => sequel.goOn result _

/-- Where nothing was told, a run may stop as before. -/
theorem silent (adds : Adds scenario.backend audience trace trace' [])
    (sound : Sound scenario audience result trace) : Sound scenario audience result trace' := by
  obtain ⟨more, rfl, trails, silent⟩ := adds
  refine sound.extend trails id fun target call ending events sequel => ?_
  rwa [silent, List.append_nil]

/-- Once it was told what became of the batch, all batches have been heard out. -/
theorem sound {front : List Entry} {patience : Option Nat}
    (adds : Adds scenario.backend audience trace trace' events)
    (awaited : Awaited scenario audience target front patience trace)
    (sequel : Sequel scenario target (executed front).length result
      ((scenario.backend.executing (executed front).length).ending patience) events) :
    Sound scenario audience result trace' := by
  obtain ⟨more, rfl, trails, rfl⟩ := adds
  exact awaited.sound_append trails sequel

end Trace.Adds

end Engine
end SqlScript
