/-!
# Paths of files

A path is a text of names between slashes.  Joining and taking the parent keep the spelling; which
file a path denotes is decided by the tree of files it is looked up in.
-/

namespace SqlScript
namespace Path

/-- The texts between slashes. -/
def splitSlashes : List Char → List (List Char)
  | [] => [[]]
  | c :: rest =>
      match splitSlashes rest with
      | [] => [[c]]
      | part :: parts => if c = '/' then [] :: part :: parts else (c :: part) :: parts

/-- The names in a path; a slash at its end stands for the directory itself. -/
def names (path : String) : List String :=
  let parts := (splitSlashes path.toList).filter fun part => !part.isEmpty
  let ending := if path.toList.getLast? = some '/' then [['.']] else []
  (parts ++ ending).map String.ofList

/-- Whether a path starts from the root. -/
def isAbsolute (path : String) : Bool :=
  path.toList.head? == some '/'

/-- The path that leads from a directory on along another path. -/
def join (directory path : String) : String :=
  if isAbsolute path then path
  else if directory.isEmpty || directory.toList.getLast? = some '/' then directory ++ path
  else directory ++ "/" ++ path

/-- A path written backwards, without slashes and dots behind its last name. -/
def trimReversed : List Char → List Char
  | ['/'] => ['/']
  | '/' :: rest => trimReversed rest
  | ['.', '/'] => ['/']
  | '.' :: '/' :: rest => trimReversed rest
  | path => path

/-- The path without its last name, if it has any. -/
def parent? (path : String) : Option String :=
  match trimReversed path.toList.reverse with
  | [] => none
  | ['/'] => none
  | reversed =>
      some (String.ofList (trimReversed (reversed.dropWhile (· != '/'))).reverse)

end Path
end SqlScript
