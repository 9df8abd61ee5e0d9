import SqlScript.Engine.Backend
import SqlScript.Engine.Event

/-!
# Progress of a run

Every action of a run reads and changes one state, which also holds the trace of all that happened
so far.  A run that is given up keeps its state, so the trace survives every kind of end.
-/

namespace SqlScript
namespace Engine

/-- One line of a trace. -/
inductive Entry where
  | call (call : Call)
  | event (event : Event)
  deriving DecidableEq, Repr, Inhabited

namespace Entry

/-- The call of an entry. -/
def call? : Entry → Option Call
  | call made => some made
  | event _ => none

/-- The event of an entry. -/
def event? : Entry → Option Event
  | call _ => none
  | event sent => some sent

end Entry

/-- An open session. -/
structure Session where
  /-- Sessions are numbered from one in the order in which they open. -/
  number : Nat
  target : Option String
  deriving DecidableEq, Repr, Inhabited

/-- Those who follow a run.  Both numbers count down from now on; `none` stands for a number that is
never reached. -/
structure Audience where
  /-- How many more events are received. -/
  room : Option Nat := none
  /-- How many more times the engine looks for a request to cancel the run and finds none. -/
  patience : Option Nat := none
  deriving DecidableEq, Repr, Inhabited

namespace Audience

/-- The audience after one more event. -/
def received (audience : Audience) : Audience :=
  { audience with room := audience.room.map (· - 1) }

/-- The audience after the engine has looked once more for a request to cancel the run. -/
def looked (audience : Audience) : Audience :=
  { audience with patience := audience.patience.map (· - 1) }

end Audience

/-- All that a run remembers. -/
structure RunState extends Audience where
  phase : Phase := .idle
  executed : Nat := 0
  failed : Nat := 0
  session : Option Session := none
  openings : Nat := 0
  executions : Nat := 0
  closings : Nat := 0
  sessions : Nat := 0
  trace : Array Entry := #[]
  deriving DecidableEq, Repr, Inhabited

/-- Whether the run is to be cancelled now. -/
def RunState.cancelled (state : RunState) : Bool :=
  state.patience == some 0

/-- Why a run does not come to its regular end. -/
inductive Stop where
  | failed (failure : RunError)
  /-- A call never returns and nothing interrupts it. -/
  | stalled
  /-- An attempt cannot be numbered. -/
  | uncounted
  deriving DecidableEq, Repr, Inhabited

/-- An action of a run. -/
abbrev Run :=
  ExceptT Stop (StateM RunState)

/-- An action that a request to cancel the run may interrupt. -/
abbrev Interruptible :=
  OptionT Run

namespace Run

/-- Enter a phase. -/
def enter (phase : Phase) : Run Unit :=
  modify fun state => { state with phase }

/-- Note that a call was made. -/
def record (call : Call) : Run Unit :=
  modify fun state => { state with trace := state.trace.push (.call call) }

/-- Send an event, which fails if it cannot be received. -/
def emit (event : Event) : Run Unit := do
  let state ← get
  if state.room = some 0 then throw (.failed .receiverGone)
  set { state with toAudience := state.received, trace := state.trace.push (.event event) }

/-- Look whether the run is to be cancelled. -/
def look : Run Bool := do
  let state ← get
  set { state with toAudience := state.looked }
  return state.cancelled

/-- Ask for the run to be cancelled. -/
def requestCancel : Run Unit :=
  modify fun state => { state with patience := some 0 }

/-- Stop receiving events. -/
def dropReceiver : Run Unit :=
  modify fun state => { state with room := some 0 }

/-- Let the session go without closing it. -/
def discardSession : Run Unit := do
  match (← get).session with
  | none => return
  | some session =>
      modify fun state => { state with session := none }
      record (.discard session.number)

end Run

namespace Interruptible

/-- A point where a request to cancel the run is noticed. -/
def checkpoint : Interruptible Unit := do
  if ← Run.look then failure

/-- Give up the whole run. -/
def abandon {α : Type} (stop : Stop) : Interruptible α :=
  liftM (throw stop : Run α)

/-- Wait for a call that sends no notices; at each turn of the engine `turn` comes first. -/
def await (turn : Interruptible Unit) :
    Behavior → Interruptible (Except SessionError (Option Nat))
  | .finish outcome => return outcome
  | .stall => do
      turn
      abandon .stalled
  | .yield next => do
      turn
      await turn next
  | .notify _ next => await turn next
  | .cancel next => do
      Run.requestCancel
      await turn next
  | .dropReceiver next => do
      Run.dropReceiver
      await turn next

end Interruptible
end Engine
end SqlScript
