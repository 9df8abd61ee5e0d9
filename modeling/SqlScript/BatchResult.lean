import SqlScript.ServerError

/-!
# Results of batches

While a batch runs the server sends notices.  The result keeps them in the order in which they came
and is a success unless an error was fatal or the session failed.
-/

namespace SqlScript

/-- Something the server reports while a batch runs. -/
inductive Notice where
  | message (text : String)
  | error (failure : ServerError)
  deriving DecidableEq, Repr, Inhabited

/-- What running a batch once came to. -/
structure BatchResult where
  success : Bool := false
  rows : Option Nat := none
  errors : List ServerError := []
  messages : List String := []
  sessionFailure : Option String := none
  connectionBroken : Bool := false
  deriving DecidableEq, Repr, Inhabited

namespace BatchResult

/-- The first error that makes the batch fail. -/
def fatalError? (result : BatchResult) : Option ServerError :=
  result.errors.find? ServerError.isFatal

/-- The result with `success` decided. -/
def classify (result : BatchResult) : BatchResult :=
  { result with
    success :=
      result.fatalError?.isNone && !result.connectionBroken && result.sessionFailure.isNone }

/-- The result with one more notice. -/
def record (result : BatchResult) : Notice → BatchResult
  | .message text => { result with messages := result.messages ++ [text] }
  | .error failure => { result with errors := result.errors ++ [failure] }

/-- Why a failed batch stops its script: the first fatal error, else the failure of the session. -/
def failureReason (result : BatchResult) : String :=
  match result.fatalError? with
  | some failure =>
      "Msg " ++ toString failure.number ++ ", Level " ++ toString failure.severity ++ ": " ++
        failure.description
  | none => result.sessionFailure.getD "connection broken"

end BatchResult
end SqlScript
