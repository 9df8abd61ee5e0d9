import SqlScript.Build.Options
import SqlScript.Retry.Policy

/-!
# Configuration of the engine
-/

namespace SqlScript
namespace Engine

/-- Settings for building and running scripts. -/
structure Config where
  build : BuildOptions := {}
  retry : Retry.Settings := {}
  /-- How many events may wait for the caller. -/
  eventBuffer : Nat := 64
  deriving DecidableEq, Repr, Inhabited

end Engine
end SqlScript
