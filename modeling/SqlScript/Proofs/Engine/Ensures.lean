import SqlScript.Engine.Progress

/-!
# What actions of a run ensure

An action is described by what holds of its result and of the state behind it.  There is one rule
for each way of putting actions together; an action that is built from others is never executed by
hand.
-/

namespace SqlScript
namespace Engine
namespace Run

variable {α β : Type} {state : RunState}

/-- Begun in `state`, the action ends with a result and a state of which `post` holds. -/
def Ensures (action : Run α) (state : RunState) (post : Except Stop α → RunState → Prop) : Prop :=
  post (action.run.run state).1 (action.run.run state).2

theorem Ensures.mono {action : Run α} {post post' : Except Stop α → RunState → Prop}
    (ensures : action.Ensures state post)
    (weaker : ∀ result after, post result after → post' result after) :
    action.Ensures state post' :=
  weaker _ _ ensures

theorem ensures_pure {value : α} {post : Except Stop α → RunState → Prop} :
    Ensures (pure value) state post ↔ post (.ok value) state := Iff.rfl

theorem ensures_throw {stop : Stop} {post : Except Stop α → RunState → Prop} :
    Ensures (throw stop) state post ↔ post (.error stop) state := Iff.rfl

theorem ensures_modify {change : RunState → RunState} {post : Except Stop Unit → RunState → Prop} :
    Ensures (modify change) state post ↔ post (.ok ()) (change state) := Iff.rfl

theorem ensures_set {after : RunState} {post : Except Stop Unit → RunState → Prop} :
    Ensures (set after) state post ↔ post (.ok ()) after := Iff.rfl

theorem ensures_get_bind {next : RunState → Run β} {post : Except Stop β → RunState → Prop} :
    Ensures (get >>= next) state post ↔ (next state).Ensures state post := Iff.rfl

theorem ensures_bind {action : Run α} {next : α → Run β} {post : Except Stop β → RunState → Prop} :
    Ensures (action >>= next) state post ↔
      action.Ensures state fun result middle =>
        match result with
        | .ok value => (next value).Ensures middle post
        | .error stop => post (.error stop) middle := by
  have run_eq : (action >>= next).run.run state =
      match action.run.run state with
      | (.ok value, middle) => (next value).run.run middle
      | (.error stop, middle) => (.error stop, middle) := by
    rw [ExceptT.run_bind, StateT.run_bind]
    rcases action.run.run state with ⟨_ | _, middle⟩ <;> rfl
  unfold Ensures
  rw [run_eq]
  rcases action.run.run state with ⟨_ | _, middle⟩ <;> rfl

theorem ensures_tryCatch {action : Run α} {handle : Stop → Run α}
    {post : Except Stop α → RunState → Prop} :
    Ensures (tryCatch action handle) state post ↔
      action.Ensures state fun result middle =>
        match result with
        | .ok value => post (.ok value) middle
        | .error stop => (handle stop).Ensures middle post := by
  have run_eq : (tryCatch action handle : Run α).run.run state =
      match action.run.run state with
      | (.ok value, middle) => (.ok value, middle)
      | (.error stop, middle) => (handle stop).run.run middle := by
    change (ExceptT.tryCatch action handle).run.run state = _
    rw [ExceptT.tryCatch, ExceptT.run_mk, StateT.run_bind]
    have outcome_eq : StateT.run action state = action.run.run state := rfl
    rw [outcome_eq]
    rcases action.run.run state with ⟨_ | _, middle⟩ <;> rfl
  unfold Ensures
  rw [run_eq]
  rcases action.run.run state with ⟨_ | _, middle⟩ <;> rfl

end Run
end Engine
end SqlScript
