import SqlScript.Server.Address
import SqlScript.Text.Quoted
import SqlScript.Toml.Decode
import SqlScript.Toml.Document

/-!
# Settings of connections

The settings give the usual server and the login for all servers.  A description of them hides the
password.
-/

namespace SqlScript
namespace Server

/-- How servers are connected to. -/
structure Settings where
  host : String := "localhost"
  port : UInt16 := 1433
  database : Option String := none
  /-- The login; without one the account of the caller counts. -/
  username : Option String := none
  password : Option String := none
  encrypt : Bool := true
  trustCertificate : Bool := false
  /-- How many seconds connecting may take. -/
  connectTimeout : Nat := 15
  applicationName : String := "batchql"
  deriving DecidableEq, Repr, Inhabited

namespace Settings

/-- How many seconds to wait for a connection, at least one. -/
def timeoutSeconds (settings : Settings) : Nat :=
  max settings.connectTimeout 1

/-- The address of a target, or the usual one. -/
def address (settings : Settings) : Option String → Except SessionError Address
  | some target => Address.parse target settings.port
  | none => .ok { host := settings.host, port := settings.port }

/-- The endpoint at an address, provided that the settings have a login. -/
def endpoint (settings : Settings) (address : Address) : Except SessionError Address :=
  match settings.username with
  | none =>
      .error (.connection
        "Windows authentication is only supported on Windows; set a username")
  | some _ =>
      .ok { address with host := if address.host = "." then "localhost" else address.host }

/-- The endpoint of a target: all that is settled before a connection is made. -/
def endpointOf (settings : Settings) (target : Option String) : Except SessionError Address := do
  settings.endpoint (← settings.address target)

/-- The settings in words. -/
def describe (settings : Settings) : String :=
  "MssqlConfig \x7b host: " ++ Text.quote settings.host ++
    ", port: " ++ toString settings.port.toNat ++
    ", database: " ++ Text.quoteOptional settings.database ++
    ", username: " ++ Text.quoteOptional settings.username ++
    ", password: " ++ Text.quoteOptional (settings.password.map fun _ => "***") ++
    ", encrypt: " ++ toString settings.encrypt ++
    ", trust_cert: " ++ toString settings.trustCertificate ++
    ", connect_timeout_secs: " ++ toString settings.connectTimeout ++
    ", application_name: " ++ Text.quote settings.applicationName ++ " \x7d"

/-- Read settings. -/
def ofFields? (fields : Toml.Fields) : Option Settings := do
  let usual : Settings := {}
  let optional (value : Toml.Value) : Option (Option String) := value.text?.map some
  let host ← fields.read 0 "host" usual.host Toml.Value.text?
  let port ← fields.read 1 "port" usual.port fun value =>
    (value.natural? UInt16.size).map UInt16.ofNat
  let database ← fields.read 2 "database" usual.database optional
  let username ← fields.read 3 "username" usual.username optional
  let password ← fields.read 4 "password" usual.password optional
  let encrypt ← fields.read 5 "encrypt" usual.encrypt Toml.Value.truth?
  let trustCertificate ← fields.read 6 "trust_cert" usual.trustCertificate Toml.Value.truth?
  let connectTimeout ←
    fields.read 7 "connect_timeout_secs" usual.connectTimeout (Toml.Value.natural? UInt64.size)
  let applicationName ←
    fields.read 8 "application_name" usual.applicationName Toml.Value.text?
  return { host, port, database, username, password, encrypt, trustCertificate, connectTimeout,
           applicationName }

/-- The settings that a document describes, if it describes any. -/
def ofText? (text : String) : Option Settings := do
  ofFields? (Toml.Fields.ofEntries (← Toml.parse? text))

end Settings
end Server
end SqlScript
