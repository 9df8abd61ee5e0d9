import SqlScript.Number.Binary

/-!
# Values of TOML documents

A document is a table of keys and values.  A table may be extended as long as the document may still
speak of it: one that a header opened is not opened again, one that a dotted key made is extended by
dotted keys only, and one written in braces is complete.
-/

namespace SqlScript
namespace Toml

/-- How a table came into being. -/
inductive Origin where
  | header
  /-- A header of another table passed through it. -/
  | implied
  /-- A dotted key passed through it. -/
  | dotted
  | braces
  deriving DecidableEq, Repr, Inhabited

/-- A value. -/
inductive Value where
  | string (text : String)
  | integer (number : Int)
  | float (number : Number.Binary)
  | boolean (truth : Bool)
  | moment
  | array (items : List Value)
  /-- Tables opened one after the other by headers of one name, the latest first. -/
  | tables (latest : List (String × Value)) (earlier : List (List (String × Value)))
  | table (origin : Origin) (entries : List (String × Value))
  deriving Inhabited

/-- The keys and values of a table. -/
abbrev Entries :=
  List (String × Value)

namespace Entries

/-- The value of a key. -/
def get? (entries : Entries) (key : String) : Option Value :=
  entries.lookup key

/-- The entries with the value of a key changed, unless the change is refused. -/
def alter (key : String) (change : Option Value → Option Value) : Entries → Option Entries
  | [] => (change none).map fun value => [(key, value)]
  | (other, value) :: rest =>
      if other = key then (change (some value)).map fun value => (other, value) :: rest
      else (alter key change rest).map ((other, value) :: ·)

/-- The entries with a new key. -/
def add (key : String) (value : Value) (entries : Entries) : Option Entries :=
  entries.alter key fun
    | none => some value
    | some _ => none

/-- Assign to a dotted key.  `direct` says whether the last table on its way may take the key. -/
def assign (key : String) (value : Value) :
    (path : List String) → (direct : Bool) → Entries → Option Entries
  | [], direct, entries => if direct then entries.add key value else none
  | first :: path, _, entries =>
      entries.alter first fun
        | none => (assign key value path true []).map (.table .dotted)
        | some (.table .dotted inner) => (assign key value path true inner).map (.table .dotted)
        | some (.table .implied inner) => (assign key value path false inner).map (.table .implied)
        | some (.tables latest earlier) =>
            (assign key value path false latest).map fun latest => .tables latest earlier
        | some _ => none

/-- Change the table that a header path leads to, through the latest of several tables. -/
def within (change : Entries → Option Entries) : (path : List String) → Entries → Option Entries
  | [], entries => change entries
  | first :: path, entries =>
      entries.alter first fun
        | none => (within change path []).map (.table .implied)
        | some (.table .braces _) => none
        | some (.table origin inner) => (within change path inner).map (.table origin)
        | some (.tables latest earlier) =>
            (within change path latest).map fun latest => .tables latest earlier
        | some _ => none

/-- Open the table of a header. -/
def openTable (path : List String) (key : String) : Entries → Option Entries :=
  within (fun entries => entries.alter key fun
    | none => some (.table .header [])
    | some (.table .implied inner) => some (.table .header inner)
    | some _ => none) path

/-- Open one more of the tables of a header. -/
def openElement (path : List String) (key : String) : Entries → Option Entries :=
  within (fun entries => entries.alter key fun
    | none => some (.tables [] [])
    | some (.tables latest earlier) => some (.tables [] (latest :: earlier))
    | some _ => none) path

end Entries
end Toml
end SqlScript
