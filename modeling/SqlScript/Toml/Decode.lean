import SqlScript.Number.Nearest
import SqlScript.Toml.Value

/-!
# Reading settings from TOML values

Settings are structures.  A structure is written as a table, where unknown keys do not matter and
missing ones leave the default, or as an array of its fields in order.
-/

namespace SqlScript
namespace Toml
namespace Value

/-- A whole number from zero up to, but without, `bound`. -/
def natural? (bound : Nat) : Value → Option Nat
  | .integer number => if 0 ≤ number && number < bound then some number.toNat else none
  | _ => none

/-- A binary number, which may be written as a whole one. -/
def number? : Value → Option Number.Binary
  | .float number => some number
  | .integer number => some (Number.nearest (number < 0) number.natAbs 0)
  | _ => none

/-- A truth value. -/
def truth? : Value → Option Bool
  | .boolean truth => some truth
  | _ => none

/-- A text. -/
def text? : Value → Option String
  | .string text => some text
  | _ => none

/-- The values of an array. -/
def items? : Value → Option (List Value)
  | .array items => some items
  | .tables latest earlier => some ((latest :: earlier).reverse.map (.table .header))
  | _ => none

/-- Whether an array or a table holds nothing. -/
def holdsNothing : Value → Bool
  | .array items => items.isEmpty
  | .table _ entries => entries.isEmpty
  | _ => false

/-- The name of an alternative: a text, or the only key of a table if nothing stands behind it. -/
def alternative? : Value → Option String
  | .string name => some name
  | .table _ [(name, content)] => if content.holdsNothing then some name else none
  | _ => none

end Value

/-- The fields of a structure by place and key. -/
abbrev Fields :=
  (place : Nat) → (key : String) → Option Value

namespace Fields

/-- The fields of a table. -/
def ofEntries (entries : Entries) : Fields :=
  fun _ key => entries.get? key

/-- The fields that a value holds; a date holds none of those anybody asks for. -/
def ofValue? : Value → Option Fields
  | .table _ entries => some (ofEntries entries)
  | .moment => some fun _ _ => none
  | value => value.items?.map fun items place _ => items[place]?

/-- Read a field, or take the default if it is missing. -/
def read {α : Type} (fields : Fields) (place : Nat) (key : String) (default : α)
    (decode : Value → Option α) : Option α :=
  match fields place key with
  | none => some default
  | some value => decode value

end Fields
end Toml
end SqlScript
