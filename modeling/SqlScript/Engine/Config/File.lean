import SqlScript.Engine.Config.Document
import SqlScript.FileTree

/-!
# Configuration files
-/

namespace SqlScript
namespace Engine

/-- Why a configuration could not be had. -/
inductive ConfigError where
  | unreadable (path : String) (fault : FileFault)
  | malformed
  deriving DecidableEq, Repr, Inhabited

namespace ConfigError

/-- The failure in words. -/
def message : ConfigError → String
  | unreadable path fault => "failed to read config " ++ path ++ ": " ++ fault.message
  | malformed => "invalid config"

end ConfigError

namespace Config

/-- The configuration of a file. -/
def load (tree : FileTree) (working : List String) (path : String) : Except ConfigError Config :=
  match tree.read working path with
  | .error fault => .error (.unreadable path fault)
  | .ok (_, text) =>
      match ofText? text with
      | some config => .ok config
      | none => .error .malformed

end Config
end Engine
end SqlScript
