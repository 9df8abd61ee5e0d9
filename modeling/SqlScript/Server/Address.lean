import SqlScript.SessionError
import SqlScript.Text.Ascii
import SqlScript.Text.Blank

/-!
# Names of servers

A server is named by a host, which `tcp:` may precede and which a comma and a port may follow.  A
dot and `(local)` name the local machine.
-/

namespace SqlScript
namespace Server

/-- Where a server listens. -/
structure Address where
  host : String
  port : UInt16
  deriving DecidableEq, Repr, Inhabited

namespace Address

/-- Host and port. -/
def display (address : Address) : String :=
  address.host ++ ":" ++ toString address.port.toNat

/-- Why a name is refused. -/
def refuse (target reason : String) : SessionError :=
  .connection ("invalid server name '" ++ target ++ "': " ++ reason)

/-- A port in decimal digits, which a plus sign may precede. -/
def port? (text : List Char) : Option UInt16 :=
  let digits :=
    match text with
    | '+' :: rest => rest
    | text => text
  let number := Text.decimalValue digits
  if !digits.isEmpty && digits.all Char.isDigit && number < UInt16.size then
    some (UInt16.ofNat number)
  else none

/-- A name without blanks around it and without the protocol in front of it. -/
def withoutProtocol (target : List Char) : List Char :=
  let name := Text.trim target
  if Text.equalsIgnoringCase (name.take 4) ['t', 'c', 'p', ':'] then name.drop 4 else name

/-- The host that a name stands for. -/
def hostOf (name : List Char) : String :=
  if name = ['.'] || name = ['(', 'l', 'o', 'c', 'a', 'l', ')'] then "localhost"
  else String.ofList name

/-- The address that a name stands for; without a port of its own it has the default one. -/
def parse (target : String) (defaultPort : UInt16) : Except SessionError Address := do
  let name := withoutProtocol target.toList
  let host := name.takeWhile (· != ',')
  let (host, port) ←
    match name.dropWhile (· != ',') with
    | [] => pure (host, defaultPort)
    | _ :: behind =>
        match port? (Text.trim behind) with
        | some port => pure (Text.trim host, port)
        | none => throw (refuse target "port must be a number between 0 and 65535")
  if host.isEmpty then
    throw (refuse target "missing host")
  if host.contains '\\' then
    throw (refuse target "named instances are not supported, give a port instead")
  return { host := hostOf host, port }

end Address
end Server
end SqlScript
