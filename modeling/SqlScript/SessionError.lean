import SqlScript.ServerError

/-!
# Errors of sessions

Opening a session or running a batch on it fails with one of these errors.  Those below the level of
the server make the session unusable.
-/

namespace SqlScript

/-- What went wrong with the transport underneath a session. -/
inductive TransportFault where
  | connectionReset
  | connectionAborted
  | connectionRefused
  | timedOut
  | brokenPipe
  | unexpectedEnd
  /-- Any other fault, by its name. -/
  | other (name : String)
  deriving DecidableEq, Repr, Inhabited

namespace TransportFault

/-- Whether the fault may be gone at the next attempt. -/
def isTransient : TransportFault → Bool
  | other _ => false
  | _ => true

end TransportFault

/-- Why a session could not be opened or could not run a batch. -/
inductive SessionError where
  | connection (reason : String)
  | connectionBroken (reason : String)
  | timeout (reason : String)
  | transport (fault : TransportFault) (reason : String)
  /-- The server raised an error that it had not reported yet. -/
  | server (failure : ServerError)
  /-- The batch was given up on request. -/
  | cancelled
  | other (reason : String)
  deriving DecidableEq, Repr, Inhabited

namespace SessionError

/-- The error in words. -/
def message : SessionError → String
  | connection reason => "Connection error: " ++ reason
  | connectionBroken reason => "Connection broken: " ++ reason
  | timeout reason => "Timeout: " ++ reason
  | transport _ reason => "IO error: " ++ reason
  | server failure => "Server error: " ++ failure.display
  | cancelled => "Cancelled"
  | other reason => reason

/-- Whether the session that failed so can no longer be used. -/
def breaksConnection : SessionError → Bool
  | connection _ | connectionBroken _ | timeout _ | transport _ _ => true
  | server _ | cancelled | other _ => false

end SessionError
end SqlScript
