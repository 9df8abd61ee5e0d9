import SqlScript.Text.Ascii
import SqlScript.Position

/-!
# Preprocessor commands

A command is a line that begins with a colon and a name.  Names are known in any case; each command
has one canonical spelling (`CommandKind.name`), from which it is read back.
-/

namespace SqlScript

/-- The commands a script may contain. -/
inductive CommandKind where
  | setVar
  | includeFile
  | onError
  | connect
  /-- Echo the pending batch. -/
  | list
  | listVar
  | perfTrace
  | out
  | error
  /-- Discard the pending batch. -/
  | reset
  /-- Stop without the pending batch. -/
  | quit
  /-- Close the pending batch and stop. -/
  | exit
  deriving DecidableEq, Repr, Inhabited

namespace CommandKind

/-- Canonical spelling without the colon. -/
def name : CommandKind → String
  | setVar => "setvar"
  | includeFile => "r"
  | onError => "on error"
  | connect => "connect"
  | list => "list"
  | listVar => "listvar"
  | perfTrace => "perftrace"
  | out => "out"
  | error => "error"
  | reset => "reset"
  | quit => "quit"
  | exit => "exit"

/-- The commands whose name is a single word. -/
def singleWord : List CommandKind :=
  [setVar, includeFile, connect, list, listVar, perfTrace, out, error, reset, quit, exit]

/-- The single-word command of a name in any case. -/
def ofName? (word : List Char) : Option CommandKind :=
  singleWord.find? fun kind => kind.name.toList == Text.lowercase word

/-- How the command is shown, colon included. -/
def display (kind : CommandKind) : String :=
  ":" ++ kind.name

end CommandKind

/-- A command line with its argument text. -/
structure Command where
  kind : CommandKind
  /-- The rest of the line after the name, trimmed. -/
  arguments : String
  /-- Where the arguments begin, or would begin. -/
  argumentsStart : Position
  deriving DecidableEq, Repr, Inhabited

end SqlScript
