import SqlScript.Proofs.Engine.Actions

/-!
# Runs that are cut short

A run whose events are no longer received ends at the first event that is not.  Up to there it is
the same run as before an audience that receives every event, and behind it only a session is let
go.
-/

namespace SqlScript
namespace Engine

theorem Audience.room_limit_eq_zero_iff (audience : Audience) (room : Nat) :
    (audience.limit room).room = some 0 ↔ audience.room = some 0 ∨ room = 0 := by
  cases room_eq : audience.room with
  | none => simp [limit, room_eq]
  | some own =>
      simp only [limit, room_eq, Option.map_some, Option.getD_some, Option.some.injEq]
      omega

/-- The audience that receives one more event has room for one less. -/
theorem Audience.received_limit {audience : Audience} (present : audience.room ≠ some 0)
    (room : Nat) : (audience.limit (room + 1)).received = audience.received.limit room := by
  cases room_eq : audience.room with
  | none => simp [limit, received, room_eq]
  | some own =>
      have own_ne : own ≠ 0 := fun zero => present (by rw [room_eq, zero])
      simp only [limit, received, room_eq, Option.map_some, Option.getD_some]
      congr 2
      omega

namespace Run

variable {α β : Type}

/-- How an action ends that may send `room` more events from the trace `before` on, where it would
have ended with `result` in `after` and have added `added` to the trace. -/
inductive Cut (room : Nat) (before added : List Entry) (result : Except Stop α)
    (after : RunState) : Except Stop α → RunState → Prop
  | same : (added.filterMap Entry.event?).length ≤ room →
      Cut room before added result after result
        (after.limit (room - (added.filterMap Entry.event?).length))
  | short {kept : List Entry} {event : Event} {state : RunState} :
      kept ++ [.event event] <+: added → (kept.filterMap Entry.event?).length = room →
        state.trace.toList = before ++ kept →
          Cut room before added result after (.error (.failed .receiverGone)) state

/-- With fewer events received the action is the same up to the first that is not. -/
def Truncates (action : Run α) : Prop :=
  ∀ state room, action.Ensures state fun result after =>
    ∃ added, after.trace.toList = state.trace.toList ++ added ∧
      action.Ensures (state.limit room) (Cut room state.trace.toList added result after)

variable {room : Nat} {before added more : List Entry} {after : RunState}

/-- What is received of an action is received of more as well. -/
theorem Cut.append {result cut_result : Except Stop α} {cut : RunState}
    (enough : (added.filterMap Entry.event?).length ≤ room)
    (behind : Cut (room - (added.filterMap Entry.event?).length) (before ++ added) more result after
      cut_result cut) : Cut room before (added ++ more) result after cut_result cut := by
  have length_eq : ((added ++ more).filterMap Entry.event?).length =
      (added.filterMap Entry.event?).length + (more.filterMap Entry.event?).length := by
    rw [List.filterMap_append, List.length_append]
  cases behind with
  | same enough_behind =>
      rw [Nat.sub_sub, ← length_eq]
      exact .same (by omega)
  | @short kept event _ begins full trace_eq =>
      have begins_whole : (added ++ kept) ++ [.event event] <+: added ++ more := by
        rw [List.append_assoc]
        exact (List.prefix_append_right_inj added).mpr begins
      refine .short begins_whole ?_ (by rw [trace_eq, List.append_assoc])
      rw [List.filterMap_append, List.length_append, full]
      omega

theorem truncates_pure (value : α) : Truncates (pure value) := fun _ room =>
  ensures_pure.mpr ⟨[], by simp, ensures_pure.mpr (.same (Nat.zero_le room))⟩

theorem truncates_throw (stop : Stop) : Truncates (throw stop : Run α) := fun _ room =>
  ensures_throw.mpr ⟨[], by simp, ensures_throw.mpr (.same (Nat.zero_le room))⟩

theorem truncates_modify {change : RunState → RunState}
    (trace_eq : ∀ state, (change state).trace = state.trace)
    (limit_eq : ∀ state room, change (state.limit room) = (change state).limit room) :
    Truncates (modify change) := by
  intro state room
  refine ensures_modify.mpr ⟨[], by rw [trace_eq, List.append_nil], ensures_modify.mpr ?_⟩
  rw [limit_eq]
  exact .same (Nat.zero_le room)

theorem truncates_dropReceiver : Truncates dropReceiver := by
  refine truncates_modify (fun _ => rfl) fun state room => ?_
  simp [RunState.limit, Audience.limit]

theorem truncates_record (call : Call) : Truncates (record call) := fun _ room =>
  ensures_modify.mpr
    ⟨[.call call], Array.toList_push, ensures_modify.mpr (.same (Nat.zero_le room))⟩

theorem truncates_look : Truncates look := fun _ room =>
  ⟨[], (List.append_nil _).symm, .same (Nat.zero_le room)⟩

theorem truncates_get_bind {next : RunState → Run α}
    (same : ∀ state room, next (state.limit room) = next state)
    (rest : ∀ state, Truncates (next state)) : Truncates (get >>= next) := by
  intro state room
  refine ensures_get_bind.mpr ((rest state state room).mono fun result after holds => ?_)
  obtain ⟨added, trace_eq, cut⟩ := holds
  refine ⟨added, trace_eq, ensures_get_bind.mpr ?_⟩
  rw [same]
  exact cut

theorem truncates_bind {action : Run α} {next : α → Run β} (first : Truncates action)
    (rest : ∀ value, Truncates (next value)) : Truncates (action >>= next) := by
  intro state room
  refine ensures_bind.mpr ((first state room).mono fun result middle holds => ?_)
  obtain ⟨added, trace_eq, cut⟩ := holds
  cases result with
  | error stop =>
      refine ⟨added, trace_eq, ensures_bind.mpr (cut.mono fun result' middle' cut => ?_)⟩
      cases cut with
      | same enough => exact .same enough
      | short begins full trace_eq' => exact .short begins full trace_eq'
  | ok value =>
      refine (rest value middle (room - (added.filterMap Entry.event?).length)).mono
        fun result after holds => ?_
      obtain ⟨more, trace_eq', cut_behind⟩ := holds
      refine ⟨added ++ more, by rw [trace_eq', trace_eq, List.append_assoc],
        ensures_bind.mpr (cut.mono fun result' middle' cut => ?_)⟩
      cases cut with
      | short begins full trace_eq' =>
          exact .short (begins.trans (List.prefix_append added more)) full trace_eq'
      | same enough =>
          rw [trace_eq] at cut_behind
          exact cut_behind.mono fun _ _ cut => cut.append enough

/-- An event is received in both cases, in neither, or only where there is room for it. -/
theorem truncates_emit (event : Event) : Truncates (emit event) := by
  intro state room
  unfold emit
  have full_iff : (state.limit room).room = some 0 ↔ state.room = some 0 ∨ room = 0 :=
    state.toAudience.room_limit_eq_zero_iff room
  refine ensures_get_bind.mpr ?_
  by_cases gone : state.room = some 0
  · rw [if_pos gone]
    refine ⟨[], (List.append_nil _).symm, ensures_get_bind.mpr ?_⟩
    rw [if_pos (full_iff.mpr (.inl gone))]
    exact .same (Nat.zero_le room)
  · rw [if_neg gone]
    refine ⟨[.event event], Array.toList_push, ensures_get_bind.mpr ?_⟩
    cases room with
    | zero =>
        have first : [] ++ [Entry.event event] <+: [.event event] := List.prefix_refl _
        rw [if_pos (full_iff.mpr (.inr rfl))]
        exact .short first rfl (List.append_nil _).symm
    | succ room =>
        have not_full : ¬(state.limit (room + 1)).room = some 0 := fun full =>
          (full_iff.mp full).elim gone (Nat.succ_ne_zero room)
        have received_eq : (state.limit (room + 1)).received = state.received.limit room :=
          Audience.received_limit gone room
        rw [if_neg not_full, received_eq]
        exact .same (Nat.le_add_left 1 room)

theorem pervasive_truncates : Pervasive @Truncates where
  pure := truncates_pure
  throw := truncates_throw
  bind := truncates_bind
  read same := truncates_get_bind fun state _ => same state _ _
  update bookkeeping := truncates_modify bookkeeping.trace_eq bookkeeping.limit_eq
  dropReceiver := truncates_dropReceiver
  record := truncates_record
  emit _ := truncates_emit _
  look := truncates_look

end Run

open Run (Truncates truncates_pure truncates_bind truncates_emit pervasive_truncates)

namespace Instance

theorem truncates_judge (target : Instance) (result : BatchResult) :
    Truncates (target.judge result) := by
  have completed : Truncates (do
      Run.emit (.batchCompleted target.batch.index target.repetition result.classify)
      return Verdict.goOn) :=
    truncates_bind (truncates_emit _) fun _ => truncates_pure _
  refine truncates_bind (pervasive_truncates.enter _) fun _ => ?_
  refine truncates_bind (Run.truncates_modify (fun _ => rfl) fun _ _ => rfl) fun _ => ?_
  split
  · refine truncates_bind (Run.truncates_modify (fun _ => rfl) fun _ _ => rfl) fun _ => ?_
    split
    · exact truncates_bind (truncates_emit _) fun _ => truncates_pure _
    · exact completed
  · exact completed

theorem truncates_attempts (policy : Retry.Policy) (backend : Backend) (target : Instance) :
    Truncates (do
      match ← target.settle policy backend {} {} with
      | none => return .cancelled
      | some result => target.judge result) := by
  refine truncates_bind (pervasive_settle target pervasive_truncates policy backend _ _)
    fun result => ?_
  cases result with
  | none => exact truncates_pure _
  | some result => exact truncates_judge target result

theorem truncates_run (policy : Retry.Policy) (backend : Backend) (target : Instance) :
    Truncates (target.run policy backend) := by
  have settled := truncates_attempts policy backend target
  refine truncates_bind pervasive_truncates.look fun cancelled => ?_
  split
  · exact truncates_bind (pervasive_cancel target pervasive_truncates) fun _ => truncates_pure _
  · refine truncates_bind (pervasive_truncates.enter _) fun _ => ?_
    refine truncates_bind (truncates_emit _) fun _ => ?_
    dsimp only
    split
    · exact truncates_bind (pervasive_truncates.forM (fun _ => rfl) _) fun _ => settled
    · exact settled

end Instance

theorem truncates_goOn_bind {first rest : Run Verdict} (truncates_first : Truncates first)
    (truncates_rest : Truncates rest) :
    Truncates (do
      match ← first with
      | .goOn => rest
      | verdict => return verdict) := by
  refine truncates_bind truncates_first fun verdict => ?_
  cases verdict with
  | goOn => exact truncates_rest
  | halted | cancelled => exact truncates_pure _

theorem truncates_repeats (policy : Retry.Policy) (backend : Backend) (batch : Batch)
    (remaining : Nat) : Truncates (runRepeats policy backend batch remaining) := by
  induction remaining with
  | zero => exact truncates_pure _
  | succ remaining ih =>
      exact truncates_goOn_bind (Instance.truncates_run policy backend _) ih

theorem truncates_batches (policy : Retry.Policy) (backend : Backend) (batches : List Batch) :
    Truncates (runBatches policy backend batches) := by
  induction batches with
  | nil => exact truncates_pure _
  | cons batch batches ih => exact truncates_goOn_bind (truncates_repeats policy backend _ _) ih

/-- A script is cut short where an event is not received. -/
theorem truncates_script (policy : Retry.Policy) (backend : Backend) (script : Script) :
    Truncates (runScript policy backend script) := by
  have finishes (phase : Phase) : Truncates (finish backend phase) :=
    tacit_finish pervasive_truncates.toTacit backend phase
  refine truncates_bind (pervasive_truncates.enter _) fun _ => ?_
  refine truncates_bind (truncates_batches policy backend _) fun verdict => ?_
  cases verdict with
  | halted => exact finishes _
  | cancelled => exact finishes _
  | goOn =>
      refine truncates_bind (pervasive_truncates.forM (fun _ => rfl) _) fun _ => ?_
      refine truncates_bind (finishes _) fun summary => ?_
      exact truncates_bind (truncates_emit _) fun _ => truncates_pure _

/-- The call opens a session or runs a batch. -/
def Call.engages : Call → Bool
  | openSession _ | execute _ _ => true
  | close _ | discard _ => false

theorem Stop.call_of_mem_parting {stop : Stop} {held : Option Session} {entry : Entry}
    (member : entry ∈ stop.parting held) : ∃ session, entry = .call (.discard session) := by
  unfold parting at member
  split at member
  · exact ⟨_, List.mem_singleton.mp member⟩
  · cases member

theorem Stop.events_parting (stop : Stop) (held : Option Session) :
    (stop.parting held).filterMap Entry.event? = [] := by
  refine List.filterMap_eq_nil_iff.mpr fun entry member => ?_
  obtain ⟨session, rfl⟩ := call_of_mem_parting member
  rfl

theorem Stop.engages_parting (stop : Stop) (held : Option Session) :
    ((stop.parting held).filterMap Entry.call?).filter Call.engages = [] := by
  unfold parting
  split <;> rfl

/-- How a run ends of which only the first `room` events are received, where it would have ended as
`whole`. -/
inductive Outcome.Truncated (room : Nat) (whole : Outcome) : Outcome → Prop
  | same : whole.events.length ≤ room → Truncated room whole whole
  | short {kept : List Entry} {event : Event} {held : Option Session} :
      kept ++ [.event event] <+: whole.trace → (kept.filterMap Entry.event?).length = room →
        Truncated room whole
          { trace := kept ++ (Stop.failed .receiverGone).parting held
            result := .error (.failed .receiverGone) }

/-- A run that stops at an event that is not received lets its session go. -/
theorem truncated_parting {room : Nat} {whole : Outcome} {kept : List Entry} {event : Event}
    {state : RunState} (begins : kept ++ [.event event] <+: whole.trace)
    (full : (kept.filterMap Entry.event?).length = room) (trace_eq : state.trace.toList = kept) :
    Run.Ensures (do
      match Stop.failed .receiverGone with
      | .failed _ => Run.discardSession
      | _ => pure ()
      throw (.failed .receiverGone) : Run Summary) state fun result after =>
        whole.Truncated room { trace := after.trace.toList, result } := by
  refine (ensures_parting (.failed .receiverGone) state).mono ?_
  rintro _ after ⟨rfl, after_eq⟩
  rw [after_eq, trace_eq]
  exact .short begins full

theorem truncated_of_run (policy : Retry.Policy) (backend : Backend) (script : Script)
    (audience : Audience) (room : Nat) :
    (run policy backend script audience).Truncated room
      (run policy backend script (audience.limit room)) := by
  let start : RunState := { toAudience := audience }
  change (guarded (runScript policy backend script)).Ensures start fun result after =>
    (guarded (runScript policy backend script)).Ensures (start.limit room) fun result' after' =>
      Outcome.Truncated room { trace := after.trace.toList, result }
        { trace := after'.trace.toList, result := result' }
  refine Run.ensures_tryCatch.mpr
    ((truncates_script policy backend script start room).mono fun result middle holds => ?_)
  obtain ⟨added, trace_eq, cut⟩ := holds
  have trace_eq : middle.trace.toList = added := trace_eq
  cases result with
  | ok summary =>
      refine Run.ensures_tryCatch.mpr (cut.mono fun result' middle' cut => ?_)
      cases cut with
      | same enough => exact .same (by rwa [Outcome.events, trace_eq])
      | short begins full trace_eq' => exact truncated_parting (by rwa [trace_eq]) full trace_eq'
  | error stop =>
      refine (ensures_parting stop middle).mono ?_
      rintro _ after ⟨rfl, after_eq⟩
      refine Run.ensures_tryCatch.mpr (cut.mono fun result' middle' cut => ?_)
      cases cut with
      | same enough =>
          refine (ensures_parting stop (middle.limit _)).mono ?_
          rintro _ after' ⟨rfl, after_eq'⟩
          have same_trace : after'.trace.toList = after.trace.toList := by
            rw [after_eq, after_eq']
            rfl
          rw [same_trace]
          refine .same ?_
          rw [Outcome.events, after_eq, trace_eq, List.filterMap_append, Stop.events_parting,
            List.append_nil]
          exact enough
      | short begins full trace_eq' =>
          rw [after_eq, trace_eq]
          exact truncated_parting (begins.trans (List.prefix_append added _)) full trace_eq'

/-- If nobody receives events behind the first `room` events of a run, these are all that are sent,
and sessions are opened and batches run as in the whole run up to there.  The run fails for this
reason if it would have sent more, however it would have ended. -/
theorem truncation_of_run (policy : Retry.Policy) (backend : Backend) (script : Script)
    (patience : Option Nat) (room : Nat) :
    let whole := run policy backend script { patience }
    let cut := run policy backend script { room := some room, patience }
    cut.events = whole.events.take room ∧
      cut.calls.filter Call.engages <+: whole.calls.filter Call.engages ∧
        (room < whole.events.length → cut.result = .error (.failed .receiverGone)) ∧
          (whole.events.length ≤ room → cut = whole) := by
  intro whole cut
  have truncated : whole.Truncated room cut := truncated_of_run policy backend script _ room
  generalize whole = whole, cut = cut at truncated
  cases truncated with
  | same enough =>
      exact ⟨(List.take_of_length_le enough).symm, List.prefix_refl _,
        fun more => absurd enough (Nat.not_le_of_lt more), fun _ => rfl⟩
  | @short kept event held begins full =>
      obtain ⟨later, trace_eq⟩ := begins
      have events_eq : whole.events = kept.filterMap Entry.event? ++
          event :: later.filterMap Entry.event? := by
        rw [Outcome.events, ← trace_eq]
        simp [Entry.event?]
      refine ⟨?_, ?_, fun _ => rfl, fun enough => ?_⟩
      · rw [events_eq, List.take_left' full, Outcome.events, List.filterMap_append,
          Stop.events_parting, List.append_nil]
      · rw [Outcome.calls, List.filterMap_append, List.filter_append, Stop.engages_parting,
          List.append_nil, Outcome.calls, ← trace_eq, List.append_assoc, List.filterMap_append,
          List.filter_append]
        exact List.prefix_append _ _
      · rw [events_eq, List.length_append, List.length_cons, full] at enough
        omega

end Engine
end SqlScript
