import SqlScript.Proofs.Engine.Totals

/-!
# Runs held against each other

Two runs are compared that differ in some of the events they tell.  Nothing else may differ, except
that more events may be received in the second one.  As no action looks at what was told, each
elementary action does the same in both.
-/

namespace SqlScript
namespace Engine

/-- The other state differs in what was told and in the receiver of events, who receives no fewer
there. -/
structure RunState.Echoes (state other : RunState) : Prop where
  facing_eq : other = state.facing other.room other.trace
  room : ∀ left ∈ other.room, ∃ own ∈ state.room, own ≤ left

namespace RunState

theorem Echoes.present {state other : RunState} (echoes : state.Echoes other)
    (present : state.room ≠ some 0) : other.room ≠ some 0 := by
  intro gone
  obtain ⟨own, own_eq, own_le⟩ := echoes.room 0 gone
  obtain rfl := Nat.le_zero.mp own_le
  exact present own_eq

/-- The state behind an event that was received. -/
def told (state : RunState) (event : Event) : RunState :=
  { state with toAudience := state.received, trace := state.trace.push (.event event) }

theorem events_told (state : RunState) (event : Event) :
    (state.told event).events = state.events ++ [event] := by
  simp [told, events, Entry.event?]

theorem Echoes.told_left {state other : RunState} (echoes : state.Echoes other) (event : Event) :
    (state.told event).Echoes other where
  facing_eq := echoes.facing_eq
  room left left_eq := by
    obtain ⟨own, own_eq, own_le⟩ := echoes.room left left_eq
    refine ⟨own - 1, ?_, by omega⟩
    simp [told, Audience.received, Option.mem_def.mp own_eq]

theorem Echoes.told {state other : RunState} (echoes : state.Echoes other) (event : Event) :
    (state.told event).Echoes (other.told event) where
  facing_eq := by
    obtain ⟨facing_eq, -⟩ := echoes
    rw [facing_eq]
    rfl
  room left left_eq := by
    obtain ⟨more, more_eq, rfl⟩ := Option.map_eq_some_iff.mp left_eq
    obtain ⟨own, own_eq, own_le⟩ := echoes.room more more_eq
    refine ⟨own - 1, ?_, by omega⟩
    simp [RunState.told, Audience.received, Option.mem_def.mp own_eq]

end RunState

namespace Run

variable {α β : Type}

theorem Ensures.ends {action : Run α} {state : RunState} {post : Except Stop α → RunState → Prop}
    (ensures : action.Ensures state post) :
    ∃ result after, post result after ∧
      ∀ {post' : Except Stop α → RunState → Prop}, post' result after →
        action.Ensures state post' :=
  ⟨_, _, ensures, fun holds => holds⟩

/-- Where `action` returns a value so does `echo`, and `told` holds of it and of the events of
both. -/
def Echoed (action echo : Run α) (told : α → List Event → List Event → Prop) : Prop :=
  ∀ state other, state.Echoes other → action.Delivers state fun value after =>
    echo.Ensures other fun result after' => result = .ok value ∧ after.Echoes after' ∧
      ∃ events echoes, after.events = state.events ++ events ∧
        after'.events = other.events ++ echoes ∧ told value events echoes

/-- The action does the same whatever is received and was told. -/
def Steadfast (action : Run α) : Prop :=
  action.Echoed action fun _ events echoes => events = echoes

/-- The same of an action that tells nothing. -/
def Mute (action : Run α) : Prop :=
  action.Echoed action fun _ events echoes => events = [] ∧ echoes = []

variable {action echo : Run α} {told : α → List Event → List Event → Prop}
  {told' : β → List Event → List Event → Prop}

theorem Echoed.mono {weaker : α → List Event → List Event → Prop} (echoed : action.Echoed echo told)
    (weakens : ∀ value events echoes, told value events echoes → weaker value events echoes) :
    action.Echoed echo weaker := by
  intro state other echoes
  refine (echoed state other echoes).mono fun value after holds => holds.mono ?_
  rintro _ after' ⟨result_eq, echoes_after, events, others, events_eq, others_eq, told_both⟩
  exact ⟨result_eq, echoes_after, events, others, events_eq, others_eq,
    weakens value events others told_both⟩

theorem Mute.steadfast (mute : action.Mute) : action.Steadfast :=
  mute.mono fun _ _ _ both => both.1.trans both.2.symm

theorem echoed_pure {value : α} (holds : told value [] []) :
    Echoed (pure value) (pure value) told := fun _ _ echoes =>
  delivers_pure (ensures_pure.mpr
    ⟨rfl, echoes, [], [], (List.append_nil _).symm, (List.append_nil _).symm, holds⟩)

theorem echoed_throw (stop : Stop) : Echoed (throw stop) echo told :=
  fun _ _ _ => ensures_throw.mpr fun _ absurd => nomatch absurd

theorem echoed_get_bind {next : RunState → Run α}
    (same : ∀ state room trace, next (state.facing room trace) = next state)
    (rest : ∀ state, (next state).Echoed (next state) told) :
    (get >>= next).Echoed (get >>= next) told := by
  intro state other echoes
  have next_eq : next other = next state := by
    rw [echoes.facing_eq, same]
  refine ensures_get_bind.mpr ((rest state state other echoes).mono fun value after echoed => ?_)
  refine ensures_get_bind.mpr ?_
  rw [next_eq]
  exact echoed

theorem echoed_bind {next next' : α → Run β} (first : action.Echoed echo told)
    (rest : ∀ value front fronts, told value front fronts →
      (next value).Echoed (next' value) fun result back backs =>
        told' result (front ++ back) (fronts ++ backs)) :
    (action >>= next).Echoed (echo >>= next') told' := by
  intro state other echoes
  refine delivers_bind ((first state other echoes).mono fun value middle echoed => ?_)
  obtain ⟨_, middle', ⟨rfl, echoes_middle, front, fronts, front_eq, fronts_eq, told_front⟩,
    ends⟩ := echoed.ends
  have behind := rest value front fronts told_front middle middle' echoes_middle
  refine behind.mono fun result after echoed => ensures_bind.mpr (ends ?_)
  refine echoed.mono ?_
  rintro _ after' ⟨rfl, echoes_after, back, backs, back_eq, backs_eq, told_back⟩
  refine ⟨rfl, echoes_after, front ++ back, fronts ++ backs, ?_, ?_, told_back⟩
  · rw [back_eq, front_eq, List.append_assoc]
  · rw [backs_eq, fronts_eq, List.append_assoc]

theorem steadfast_bind {next : α → Run β} (first : action.Steadfast)
    (rest : ∀ value, (next value).Steadfast) : (action >>= next).Steadfast := by
  refine echoed_bind first ?_
  rintro value events _ rfl
  exact (rest value).mono fun _ _ _ same => congrArg (events ++ ·) same

theorem echoed_mute_bind {next next' : α → Run β} (first : action.Mute)
    (rest : ∀ value, (next value).Echoed (next' value) told') :
    (action >>= next).Echoed (action >>= next') told' := by
  refine echoed_bind first ?_
  rintro value _ _ ⟨rfl, rfl⟩
  exact rest value

/-- A change that adds no event to the trace is mute if it does not tell the states apart. -/
theorem mute_of_change {change : RunState → RunState} {calls : List Entry}
    (no_event : calls.filterMap Entry.event? = [])
    (trace_eq : ∀ state, (change state).trace.toList = state.trace.toList ++ calls)
    (echoes_change : ∀ state other, state.Echoes other → (change state).Echoes (change other)) :
    Mute (modify change) := by
  intro state other echoes
  have events_eq (state : RunState) : (change state).events = state.events ++ [] := by
    rw [RunState.events, trace_eq, List.filterMap_append, no_event]
    rfl
  exact ensures_modify.mpr fun _ _ => ensures_modify.mpr
    ⟨rfl, echoes_change state other echoes, [], [], events_eq state, events_eq other, rfl, rfl⟩

theorem mute_modify {change : RunState → RunState} (internal : Internal change) :
    Mute (modify change) := by
  have kept (state : RunState) : (change state).trace.toList = state.trace.toList ++ [] := by
    rw [internal.trace_eq, List.append_nil]
  refine mute_of_change rfl kept fun state other echoes => ⟨?_, ?_⟩
  · rw [internal.room_eq, internal.trace_eq, ← internal.facing_eq]
    exact congrArg change echoes.facing_eq
  · rw [internal.room_eq, internal.room_eq]
    exact echoes.room

theorem mute_dropReceiver : Mute dropReceiver := by
  refine mute_of_change rfl (fun _ => (List.append_nil _).symm) fun state other echoes => ?_
  obtain ⟨facing_eq, -⟩ := echoes
  exact ⟨by rw [facing_eq]; rfl, by simp⟩

theorem mute_record (call : Call) : Mute (record call) := by
  refine mute_of_change rfl (fun _ => Array.toList_push) fun state other echoes => ?_
  obtain ⟨facing_eq, room⟩ := echoes
  exact ⟨by rw [facing_eq]; rfl, room⟩

theorem mute_look : Mute look := by
  rintro state other ⟨facing_eq, room⟩ value returned
  have cancelled_eq : other.cancelled = state.cancelled := by
    rw [facing_eq]
    rfl
  refine ⟨returned ▸ congrArg Except.ok cancelled_eq, ⟨?_, room⟩, [], [],
    (List.append_nil _).symm, (List.append_nil _).symm, rfl, rfl⟩
  change { other with toAudience := other.looked } = _
  rw [facing_eq]
  rfl

theorem tacit_mute : Tacit @Mute where
  pure _ := echoed_pure ⟨rfl, rfl⟩
  throw stop := echoed_throw stop
  bind := echoed_mute_bind
  read := echoed_get_bind
  update bookkeeping := mute_modify bookkeeping.toInternal
  dropReceiver := mute_dropReceiver
  record := mute_record
  look := mute_look

theorem delivers_emit (event : Event) (state : RunState) :
    (emit event).Delivers state fun _ after =>
      state.room ≠ some 0 ∧ after = state.told event := by
  refine ensures_get_bind.mpr ?_
  split
  · exact fun value absurd => nomatch absurd
  · rename_i present
    exact fun _ _ => ⟨present, rfl⟩

theorem ensures_emit_present (event : Event) {state : RunState} (present : state.room ≠ some 0) :
    (emit event).Ensures state fun result after => result = .ok () ∧ after = state.told event := by
  refine ensures_get_bind.mpr ?_
  rw [if_neg present]
  exact ⟨rfl, rfl⟩

theorem echoed_emit (event : Event) :
    (emit event).Echoed (emit event) fun _ events echoes =>
      events = [event] ∧ echoes = [event] := by
  intro state other echoes
  refine (delivers_emit event state).mono ?_
  rintro _ _ ⟨present, rfl⟩
  refine (ensures_emit_present event (echoes.present present)).mono ?_
  rintro _ _ ⟨rfl, rfl⟩
  exact ⟨rfl, echoes.told event, [event], [event], state.events_told event,
    other.events_told event, rfl, rfl⟩

theorem steadfast_emit (event : Event) : Steadfast (emit event) :=
  (echoed_emit event).mono fun _ _ _ both => both.1.trans both.2.symm

theorem echoed_emit_bind {event : Event} {next next' : Run α}
    (rest : next.Echoed next' fun value events echoes =>
      told value (event :: events) (event :: echoes)) :
    (do emit event; next).Echoed (do emit event; next') told := by
  refine echoed_bind (echoed_emit event) ?_
  rintro value _ _ ⟨rfl, rfl⟩
  exact rest

/-- An event may be told on one side only. -/
theorem echoed_emit_left_bind {event : Event} {next : Run α}
    (rest : next.Echoed echo fun value events echoes => told value (event :: events) echoes) :
    (do emit event; next).Echoed echo told := by
  intro state other echoes
  refine delivers_bind ((delivers_emit event state).mono ?_)
  rintro _ _ ⟨-, rfl⟩
  refine (rest _ other (echoes.told_left event)).mono fun value after echoed => echoed.mono ?_
  rintro _ _ ⟨rfl, echoes_after, events, others, events_eq, others_eq, holds⟩
  refine ⟨rfl, echoes_after, event :: events, others, ?_, others_eq, holds⟩
  rw [events_eq, RunState.events_told, List.append_assoc, List.singleton_append]

theorem echoed_forM_bind {texts : List String} {event : String → Event} {next : Run α}
    (rest : next.Echoed echo fun value events echoes =>
      told value (texts.map event ++ events) echoes) :
    (do texts.forM fun text => emit (event text); next).Echoed echo told := by
  induction texts generalizing told with
  | nil => exact rest
  | cons text texts ih =>
      rw [List.forM, bind_assoc]
      exact echoed_emit_left_bind (ih rest)

theorem pervasive_steadfast : Pervasive @Steadfast where
  pure value := (tacit_mute.pure value).steadfast
  throw stop := echoed_throw stop
  bind := steadfast_bind
  read := echoed_get_bind
  update bookkeeping := (tacit_mute.update bookkeeping).steadfast
  dropReceiver := tacit_mute.dropReceiver.steadfast
  record call := (tacit_mute.record call).steadfast
  emit _ := steadfast_emit _
  look := tacit_mute.look.steadfast

end Run

end Engine
end SqlScript
