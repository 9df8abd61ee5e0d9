import SqlScript.FileTree
import SqlScript.Include

/-!
# Includes from a tree of files

A relative path starts from the directory of the file it is written in, and from a base directory if
it is written in the script itself.
-/

namespace SqlScript
namespace Resolver

/-- The path to be read for a path written in `requester`. -/
def candidate (base path : String) (requester : SourceFile) : String :=
  Path.join ((requester.path?.bind Path.parent?).getD base) path

/-- Files of a tree, looked up from `working` unless their paths are absolute. -/
def ofTree (tree : FileTree) (working : List String) (base : String) : Resolver :=
  fun path requester =>
    let candidate := candidate base path requester
    match tree.read working candidate with
    | .ok (place, text) => .ok { path := FileTree.pathOf place, text }
    | .error .notFound => .error (.notFound candidate)
    | .error fault => .error (.unreadable candidate fault.message)

end Resolver
end SqlScript
