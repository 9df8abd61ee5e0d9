import SqlScript.Path

/-!
# Trees of files

A tree of files without links.  A path is followed name by name: each step starts from a directory,
`.` stays there and `..` goes back, so that the names on the way from the root identify the file
that is reached, however the path was spelled.
-/

namespace SqlScript

/-- Files in nested directories. -/
inductive FileTree where
  | file (content : ByteArray)
  | directory (entries : List (String × FileTree))
  deriving Inhabited

/-- Why a file could not be read. -/
inductive FileFault where
  | notFound
  /-- A file stands where a directory is needed. -/
  | notDirectory
  | isDirectory
  | invalidText
  /-- A name on the way, or the path as a whole, is too long. -/
  | nameTooLong
  /-- The path has a character that no name can have. -/
  | nulInPath
  deriving DecidableEq, Repr, Inhabited

namespace FileFault

/-- The fault in words. -/
def message : FileFault → String
  | notFound => "No such file or directory (os error 2)"
  | notDirectory => "Not a directory (os error 20)"
  | isDirectory => "Is a directory (os error 21)"
  | invalidText => "stream did not contain valid UTF-8"
  | nameTooLong => "File name too long (os error 36)"
  | nulInPath => "file name contained an unexpected NUL byte"

end FileFault

namespace FileTree

/-- The tree without files. -/
def empty : FileTree :=
  .directory []

/-- The entry of a directory. -/
def child? (tree : FileTree) (name : String) : Option FileTree :=
  match tree with
  | file _ => none
  | directory entries => entries.lookup name

/-- What stands at the end of a row of names. -/
def find? (tree : FileTree) : List String → Option FileTree
  | [] => some tree
  | name :: rest => (tree.child? name).bind fun inner => inner.find? rest

/-- The entries with one of them changed or added. -/
def setEntry (name : String) (inner : FileTree) :
    List (String × FileTree) → List (String × FileTree)
  | [] => [(name, inner)]
  | (other, tree) :: rest =>
      if other = name then (name, inner) :: rest else (other, tree) :: setEntry name inner rest

/-- The tree with `node` at the end of a row of names; directories on the way are made, but a
directory that is there already stays as it is. -/
def insert (tree node : FileTree) : List String → FileTree
  | [] =>
      match tree, node with
      | directory entries, directory _ => directory entries
      | _, node => node
  | name :: rest =>
      let entries :=
        match tree with
        | directory entries => entries
        | file _ => []
      let inner := (entries.lookup name).getD empty
      directory (setEntry name (inner.insert node rest) entries)

/-- The number of bytes that a name must not exceed. -/
def maxNameSize : Nat :=
  255

/-- The number of bytes that a path must not exceed. -/
def maxPathSize : Nat :=
  4095

/-- Follow one name of a path from the directory that `place` leads to. -/
def step (tree : FileTree) (place : List String) (name : String) :
    Except FileFault (List String) :=
  match tree.find? place with
  | none => .error .notFound
  | some (file _) => .error .notDirectory
  | some (directory entries) =>
      if name = "." then .ok place
      else if name = ".." then .ok place.dropLast
      else if maxNameSize < name.utf8ByteSize then .error .nameTooLong
      else if (entries.lookup name).isSome then .ok (place ++ [name])
      else .error .notFound

/-- The names on the way from the root to where a path leads; one that does not start from the root
starts from `working`. -/
def resolve (tree : FileTree) (working : List String) (path : String) :
    Except FileFault (List String) :=
  if path.isEmpty then .error .notFound
  else if path.toList.contains '\x00' then .error .nulInPath
  else if maxPathSize < path.utf8ByteSize then .error .nameTooLong
  else (Path.names path).foldlM tree.step (if Path.isAbsolute path then [] else working)

/-- The path that identifies what a row of names leads to. -/
def pathOf (place : List String) : String :=
  "/" ++ String.intercalate "/" place

/-- The place of a file and its text. -/
def read (tree : FileTree) (working : List String) (path : String) :
    Except FileFault (List String × String) := do
  let place ← tree.resolve working path
  match tree.find? place with
  | none => throw .notFound
  | some (directory _) => throw .isDirectory
  | some (file content) =>
      match String.fromUTF8? content with
      | some text => return (place, text)
      | none => throw .invalidText

end FileTree
end SqlScript
