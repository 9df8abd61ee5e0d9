import SqlScript.Position

/-!
# Included files

A resolver turns the path written in an include directive into a file.  The file's own path is its
identity: it tags the positions in the file and tells whether two directives mean the same file.
-/

namespace SqlScript

/-- A file that a directive asked for. -/
structure IncludedFile where
  /-- The path that identifies the file. -/
  path : String
  text : String
  deriving DecidableEq, Repr, Inhabited

/-- Why a file could not be had. -/
inductive IncludeError where
  | notFound (path : String)
  | unreadable (path reason : String)
  deriving DecidableEq, Repr, Inhabited

namespace IncludeError

/-- The failure in words. -/
def message : IncludeError → String
  | notFound path => "file not found: " ++ path
  | unreadable path reason => "failed to read " ++ path ++ ": " ++ reason

end IncludeError

/-- A way to find the file of a path that is written in the file `requester`. -/
abbrev Resolver :=
  (path : String) → (requester : SourceFile) → Except IncludeError IncludedFile

namespace Resolver

/-- Files known by the exact spelling of their paths, wherever they are asked for. -/
def ofFiles (files : List (String × String)) : Resolver := fun path _ =>
  match files.lookup path with
  | some text => .ok { path, text }
  | none => .error (.notFound path)

end Resolver
end SqlScript
