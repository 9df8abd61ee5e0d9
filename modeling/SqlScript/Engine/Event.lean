import SqlScript.Batch
import SqlScript.BatchResult
import SqlScript.SessionError

/-!
# Events of a run

A run tells its caller what it does by events.  The last event of a finished run is terminal, and no
other event is.
-/

namespace SqlScript
namespace Engine

/-- Where a run stands. -/
inductive Phase where
  | idle
  | running
  | dispatching
  | awaiting
  | reporting
  | completed
  | halted
  | cancelled
  deriving DecidableEq, Repr, Inhabited

namespace Phase

/-- The phases in the order in which a run may pass through them. -/
def all : List Phase :=
  [idle, running, dispatching, awaiting, reporting, completed, halted, cancelled]

/-- The name of the phase. -/
def name : Phase → String
  | idle => "idle"
  | running => "running"
  | dispatching => "dispatching"
  | awaiting => "awaiting"
  | reporting => "reporting"
  | completed => "completed"
  | halted => "halted"
  | cancelled => "cancelled"

/-- Whether the run has ended. -/
def isTerminal : Phase → Bool
  | completed | halted | cancelled => true
  | _ => false

end Phase

/-- The totals of a run. -/
structure Summary where
  phase : Phase
  /-- How many batches were run, repetitions included. -/
  executed : Nat
  failed : Nat
  deriving DecidableEq, Repr, Inhabited

/-- An error that is reported while a batch runs. -/
inductive ReportedError where
  /-- An error raised by the server, at the place in the script that it concerns. -/
  | server (failure : ServerError) (position : Position)
  | session (message : String)
  deriving DecidableEq, Repr, Inhabited

namespace ReportedError

/-- The error in words. -/
def display : ReportedError → String
  | server failure position => failure.display ++ " (" ++ position.display ++ ")"
  | session message => message

end ReportedError

/-- Something the caller learns about a run. -/
inductive Event where
  | batchStarted (batch repetition repeatCount : Nat) (span : Span)
  /-- Output of a batch, or of the script as a whole. -/
  | message (batch : Option Nat) (text : String)
  | error (batch repetition : Nat) (failure : ReportedError)
  | batchCompleted (batch repetition : Nat) (result : BatchResult)
  | scriptCompleted (summary : Summary)
  | scriptHalted (batch : Nat) (reason : String)
  | scriptCancelled (batch : Nat)
  deriving DecidableEq, Repr, Inhabited

namespace Event

/-- Whether the event ends its run. -/
def isTerminal : Event → Bool
  | scriptCompleted _ | scriptHalted _ _ | scriptCancelled _ => true
  | _ => false

end Event

/-- Why a run ends without a summary. -/
inductive RunError where
  | connection (failure : SessionError)
  /-- The backend did what it must not do. -/
  | internal (message : String) (batch : Nat) (span : Span) (phase : Phase)
  | receiverGone
  deriving DecidableEq, Repr, Inhabited

namespace RunError

/-- The error in words. -/
def message : RunError → String
  | connection failure => "Connection error: " ++ failure.message
  | internal message batch span phase =>
      "Internal error in batch " ++ toString batch ++ " (" ++ span.display ++ ") while " ++
        phase.name ++ ": " ++ message
  | receiverGone => "Event receiver dropped"

end RunError
end Engine
end SqlScript
