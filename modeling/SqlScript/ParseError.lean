import SqlScript.Command

/-!
# Parse errors

A script that cannot be read or assembled fails with one cause at one position.
-/

namespace SqlScript

/-- Why a script was refused. -/
inductive ParseCause where
  | unterminatedString
  | unterminatedIdentifier
  | unterminatedComment
  | unknownCommand (name : String)
  /-- A reference without a valid name or without its end. -/
  | malformedReference
  | undefinedVariable (name : String)
  /-- A repeat count that is zero or too large. -/
  | invalidRepeatCount (count : String)
  | invalidArguments (command : CommandKind) (reason : String)
  | includeNotFound (path reason : String)
  /-- A file that is being expanded already. -/
  | includeCycle (path : String)
  | includeDepthExceeded (limit : Nat)
  deriving DecidableEq, Repr, Inhabited

namespace ParseCause

/-- The cause in words. -/
def message : ParseCause → String
  | unterminatedString => "unterminated string literal"
  | unterminatedIdentifier => "unterminated quoted identifier"
  | unterminatedComment => "unterminated block comment"
  | unknownCommand name => "unknown preprocessor command ':" ++ name ++ "'"
  | malformedReference => "malformed variable reference"
  | undefinedVariable name => "undefined variable '" ++ name ++ "'"
  | invalidRepeatCount count => "invalid batch repeat count '" ++ count ++ "'"
  | invalidArguments command reason => "invalid arguments for " ++ command.name ++ ": " ++ reason
  | includeNotFound path reason => "cannot include '" ++ path ++ "': " ++ reason
  | includeCycle path => "include cycle: '" ++ path ++ "' is already being included"
  | includeDepthExceeded limit => "include depth exceeds the limit of " ++ toString limit

end ParseCause

/-- A refusal together with the place it concerns. -/
structure ParseError where
  cause : ParseCause
  position : Position
  deriving DecidableEq, Repr, Inhabited

namespace ParseError

/-- The error in words. -/
def message (failure : ParseError) : String :=
  failure.cause.message ++ " at " ++ failure.position.display

end ParseError
end SqlScript
