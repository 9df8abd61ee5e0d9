import SqlScript.SessionError

/-!
# Errors of the wire protocol

What goes wrong between the client and the server is reported as an error of the session.  Faults of
the transport keep their kind, so that they are judged as any other.
-/

namespace SqlScript
namespace Server

/-- What goes wrong between client and server, server errors aside. -/
inductive WireError where
  | transport (fault : TransportFault) (message : String)
  /-- The server sends the client elsewhere. -/
  | routing (host : String) (port : Nat)
  | protocol (message : String)
  | encoding (message : String)
  | conversion (message : String)
  | utf8
  | utf16
  | secureChannel (message : String)
  | bulkInput (message : String)
  deriving DecidableEq, Repr, Inhabited

namespace WireError

/-- The error of the session. -/
def toSessionError : WireError → SessionError
  | transport fault message => .transport fault message
  | routing host port =>
      .connection
        ("server redirected the connection to " ++ host ++ ":" ++ toString port)
  | protocol message => .other ("Protocol error: " ++ message)
  | encoding message => .other ("Encoding error: " ++ message)
  | conversion message => .other ("Conversion error: " ++ message)
  | utf8 => .other "UTF-8 error"
  | utf16 => .other "UTF-16 error"
  | secureChannel message => .other ("Error forming TLS connection: " ++ message)
  | bulkInput message => .other ("BULK UPLOAD input failure: " ++ message)

end WireError
end Server
end SqlScript
