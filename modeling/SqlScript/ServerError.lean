/-!
# Errors raised by the server

The server reports an error with a number, a severity and a line of the batch.  Severities from
eleven up make the batch fail; lower ones are warnings.
-/

namespace SqlScript

/-- An error raised while a batch ran. -/
structure ServerError where
  number : Nat
  severity : Nat
  /-- Its state, which tells apart occurrences of one number. -/
  state : Nat := 1
  message : String
  /-- The line of the batch, counted from one, or zero if the server named none. -/
  line : Nat := 0
  procedure : Option String := none
  server : Option String := none
  deriving DecidableEq, Repr, Inhabited

namespace ServerError

/-- The least severity that makes a batch fail. -/
def fatalSeverity : Nat :=
  11

/-- The number that says that a linked server is not defined. -/
def linkedServerNotFound : Nat :=
  7202

/-- Whether the error makes its batch fail. -/
def isFatal (failure : ServerError) : Bool :=
  fatalSeverity ≤ failure.severity

/-- The message, with advice where the cause usually lies in the configuration. -/
def description (failure : ServerError) : String :=
  if failure.number = linkedServerNotFound then
    failure.message ++
      "\nVerify the linked server definition with sp_addlinkedserver or sys.servers."
  else failure.message

/-- The error in full. -/
def display (failure : ServerError) : String :=
  "Msg " ++ toString failure.number ++ ", Level " ++ toString failure.severity ++ ", State " ++
    toString failure.state ++ ", Line " ++ toString failure.line ++ ": " ++ failure.message

end ServerError
end SqlScript
