import SqlScript.LineMap
import SqlScript.Text.Ascii
import SqlScript.Text.Blank

/-!
# Batches and scripts

A script is a row of batches, each of which is sent to the server as one text, with what the
commands of the script decided about it.
-/

namespace SqlScript

/-- What a failing batch does to the script. -/
inductive ErrorAction where
  | exit
  | ignore
  deriving DecidableEq, Repr, Inhabited

namespace ErrorAction

/-- The name of the action. -/
def name : ErrorAction → String
  | exit => "exit"
  | ignore => "ignore"

/-- The action of exactly this name. -/
def ofName? (name : String) : Option ErrorAction :=
  [exit, ignore].find? fun action => action.name == name

/-- The action named by an argument in any case, blanks around it aside. -/
def ofArgument? (argument : String) : Option ErrorAction :=
  ofName? (String.ofList (Text.lowercase (Text.trim argument.toList)))

/-- Whether a failing batch stops the script. -/
def halts : ErrorAction → Bool
  | exit => true
  | ignore => false

end ErrorAction

/-- A text for the server and the circumstances in which it is run. -/
structure Batch where
  /-- The place of the batch in its script, counted from zero. -/
  index : Nat
  text : String
  start : Position
  stop : Position
  repeatCount : Nat
  errorAction : ErrorAction
  /-- The server it is run on, unless it is the usual one. -/
  connectTarget : Option String
  /-- Messages to be shown before it is run. -/
  preamble : List String
  lineMap : LineMap
  deriving DecidableEq, Repr, Inhabited

namespace Batch

/-- A batch of blank characters alone is never sent. -/
def isBlank (batch : Batch) : Bool :=
  Text.isBlankText batch.text.toList

/-- The source region of the batch. -/
def span (batch : Batch) : Span where
  start := batch.start
  stop := batch.stop

/-- The source position of a line of the text. -/
def positionOfLine? (batch : Batch) (line : Nat) : Option Position :=
  batch.lineMap.get? line

end Batch

/-- Where a script wants its output sent. -/
structure OutputTargets where
  out : Option String := none
  error : Option String := none
  perfTrace : Option String := none
  deriving DecidableEq, Repr, Inhabited

/-- Batches in the order in which they run, and what else the commands decided. -/
structure Script where
  batches : Array Batch
  trailingMessages : List String
  outputTargets : OutputTargets
  deriving DecidableEq, Repr, Inhabited

namespace Script

/-- Whether there is no batch. -/
def isEmpty (script : Script) : Bool :=
  script.batches.isEmpty

/-- The batches that are sent to the server. -/
def runnable (script : Script) : List Batch :=
  script.batches.toList.filter fun batch => !batch.isBlank

/-- How many times batches are sent, repetitions included. -/
def instanceCount (script : Script) : Nat :=
  script.runnable.foldr (fun batch count => batch.repeatCount + count) 0

end Script
end SqlScript
