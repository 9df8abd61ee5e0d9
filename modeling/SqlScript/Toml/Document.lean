import SqlScript.Toml.Scalar

/-!
# TOML documents

A document is a row of lines, each of which assigns a value to a key or opens the table to which the
following keys belong.  Values in brackets and braces may be nested, up to a limit.
-/

namespace SqlScript
namespace Toml
namespace Reader

/-- A reader that fails where there is no value. -/
def require {α : Type} : Option α → Reader α
  | some value => return value
  | none => failure

/-- The rest of an array; a comma may stand behind its last value. -/
def items (item : Reader Value) : (fuel : Nat) → Reader (List Value)
  | 0 => failure
  | fuel + 1 => do
      skipLayout
      if ← accept [']'] then return []
      else
        let value ← item
        skipLayout
        if ← accept [','] then return value :: (← items item fuel)
        else
          expect [']']
          return [value]

/-- The key and value of an assignment. -/
def assignment (item : Reader Value) : Reader (List String × String × Value) := do
  let (path, last) ← key
  expect ['=']
  skipGap
  let value ← item
  return (path, last, value)

/-- The rest of a table in braces that holds `entries` so far. -/
def bracedEntries (item : Reader Value) : (fuel : Nat) → Entries → Reader Entries
  | 0, _ => failure
  | fuel + 1, entries => do
      let (path, last, value) ← assignment item
      let entries ← require (entries.assign last value path true)
      skipGap
      if ← accept [','] then bracedEntries item fuel entries
      else
        expect ['\x7d']
        return entries

/-- A table in braces behind the opening one. -/
def braced (item : Reader Value) : Reader Value := do
  skipGap
  if ← accept ['\x7d'] then return .table .braces []
  else return .table .braces (← rounds fun fuel => bracedEntries item fuel [])

/-- A value; `nested` reads the values inside it if there may be any. -/
def valueWith (nested : Option (Reader Value)) : Reader Value := do
  match ← peek with
  | some '"' => return .string (← quoted '"')
  | some '\x27' => return .string (← quoted '\x27')
  | some '[' =>
      let item ← require nested
      expect ['[']
      return .array (← rounds (items item))
  | some '\x7b' =>
      let item ← require nested
      expect ['\x7b']
      braced item
  | _ => scalar

/-- A value in which brackets and braces are nested at most `depth` times. -/
def value : (depth : Nat) → Reader Value
  | 0 => valueWith none
  | depth + 1 => valueWith (some (value depth))

/-- How deeply values may be nested. -/
def nestingLimit : Nat :=
  79

/-- The header of a table, which opens it. -/
def header (root : Entries) : Reader (Entries × List String) := do
  let several ← accept ['[', '[']
  if !several then expect ['[']
  let (path, last) ← key
  expect [']']
  if several then expect [']']
  lineEnd
  let root ← require (if several then root.openElement path last else root.openTable path last)
  return (root, path ++ [last])

/-- The lines of a document of which `root` is read and whose table at `path` is open. -/
def lines : (fuel : Nat) → (root : Entries) → (path : List String) → Reader Entries
  | 0, _, _ => failure
  | fuel + 1, root, path => do
      skipLayout
      match ← peek with
      | none => return root
      | some '[' =>
          let (root, path) ← header root
          lines fuel root path
      | some _ =>
          let (way, last, value) ← assignment (value nestingLimit)
          lineEnd
          let root ← require (root.within (fun entries => entries.assign last value way true) path)
          lines fuel root path

/-- A document, in front of which a byte order mark may stand. -/
def document : Reader Entries := do
  let _ ← accept ['\ufeff']
  rounds fun fuel => lines fuel [] []

end Reader

/-- The table that a document describes, if it is well formed. -/
def parse? (text : String) : Option Entries :=
  (Reader.document.run text.toList).map Prod.fst

end Toml
end SqlScript
