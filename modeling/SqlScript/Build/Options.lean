import SqlScript.Batch

/-!
# Options for building a script
-/

namespace SqlScript

/-- What a script takes for granted before its first command. -/
structure BuildOptions where
  /-- How deeply includes may be nested; zero forbids them. -/
  maxIncludeDepth : Nat := 16
  /-- What a failing batch does before the script says otherwise. -/
  defaultErrorAction : ErrorAction := .exit
  deriving DecidableEq, Repr, Inhabited

end SqlScript
