import SqlScript.Engine.Execution

/-!
# Running scripts

The batches of a script are run one after the other, each as often as it says.  A batch that fails
stops the script if the script says so; a request to cancel the run stops it wherever the engine has
a turn.  The session is closed at the regular end of a run and let go if the run fails.
-/

namespace SqlScript
namespace Engine

/-- Whether the script goes on after a batch. -/
inductive Verdict where
  | goOn
  | halted
  | cancelled
  deriving DecidableEq, Repr, Inhabited

namespace Instance

/-- Count the batch, announce its result, and decide whether the script goes on. -/
def judge (target : Instance) (result : BatchResult) : Run Verdict := do
  Run.enter .reporting
  let result := result.classify
  modify fun state => { state with executed := state.executed + 1 }
  if !result.success then
    modify fun state => { state with failed := state.failed + 1 }
    if target.batch.errorAction.halts then
      Run.emit (.scriptHalted target.batch.index result.failureReason)
      return .halted
  Run.emit (.batchCompleted target.batch.index target.repetition result)
  return .goOn

/-- Run the batch this one time. -/
def run (policy : Retry.Policy) (backend : Backend) (target : Instance) : Run Verdict := do
  if ← Run.look then
    target.cancel
    return .cancelled
  Run.enter .dispatching
  Run.emit (.batchStarted target.batch.index target.repetition target.batch.repeatCount
    target.batch.span)
  if target.repetition = 1 then
    target.batch.preamble.forM fun text => Run.emit (.message (some target.batch.index) text)
  match ← target.settle policy backend {} {} with
  | none => return .cancelled
  | some result => target.judge result

end Instance

/-- Run a batch as many more times as `remaining` says. -/
def runRepeats (policy : Retry.Policy) (backend : Backend) (batch : Batch) :
    (remaining : Nat) → Run Verdict
  | 0 => return .goOn
  | remaining + 1 => do
      match ← Instance.run policy backend
          { batch, repetition := batch.repeatCount - remaining } with
      | .goOn => runRepeats policy backend batch remaining
      | verdict => return verdict

/-- Run batches one after the other. -/
def runBatches (policy : Retry.Policy) (backend : Backend) : List Batch → Run Verdict
  | [] => return .goOn
  | batch :: rest => do
      match ← runRepeats policy backend batch batch.repeatCount with
      | .goOn => runBatches policy backend rest
      | verdict => return verdict

/-- Close the session and sum up the run. -/
def finish (backend : Backend) (phase : Phase) : Run Summary := do
  let _ ← (Slot.close backend (return)).run
  Run.enter phase
  let state ← get
  return { phase, executed := state.executed, failed := state.failed }

/-- Run a whole script. -/
def runScript (policy : Retry.Policy) (backend : Backend) (script : Script) : Run Summary := do
  Run.enter .running
  match ← runBatches policy backend script.runnable with
  | .halted => finish backend .halted
  | .cancelled => finish backend .cancelled
  | .goOn =>
      script.trailingMessages.forM fun text => Run.emit (.message none text)
      let summary ← finish backend .completed
      Run.emit (.scriptCompleted summary)
      return summary

/-- An action of a run that lets the session go if it fails. -/
def guarded {α : Type} (action : Run α) : Run α :=
  tryCatch action fun stop => do
    match stop with
    | .failed _ => Run.discardSession
    | _ => pure ()
    throw stop

/-- What is left when a run is over. -/
structure Outcome where
  trace : List Entry
  result : Except Stop Summary

namespace Outcome

/-- The calls of the run, in order. -/
def calls (outcome : Outcome) : List Call :=
  outcome.trace.filterMap Entry.call?

/-- The events of the run, in order. -/
def events (outcome : Outcome) : List Event :=
  outcome.trace.filterMap Entry.event?

end Outcome

/-- Run a script on a backend before an audience. -/
def run (policy : Retry.Policy) (backend : Backend) (script : Script) (audience : Audience) :
    Outcome :=
  let (result, state) :=
    (guarded (runScript policy backend script)).run.run { toAudience := audience }
  { trace := state.trace.toList, result }

end Engine
end SqlScript
