import SqlScript.ParseError
import SqlScript.Variable.Table

/-!
# Substitution of variables

A reference is written `$(name)`.  Substitution goes through a text once from left to right and puts
each value in the place of its reference as it stands; a value is never searched for references.
The first reference that is malformed or names no variable is the error, placed where it begins.
-/

namespace SqlScript
namespace Variable

/-- Split at the first closing parenthesis, which belongs to neither part. -/
def splitReference? (text : List Char) : Option (List Char × List Char) :=
  match text.dropWhile (· != ')') with
  | [] => none
  | _ :: behind => some (text.takeWhile (· != ')'), behind)

theorem length_lt_of_splitReference? {text : List Char} {parts : List Char × List Char}
    (found : splitReference? text = some parts) : parts.2.length < text.length := by
  unfold splitReference? at found
  split at found
  · contradiction
  · rename_i close behind dropped
    cases found
    have shorter := (List.dropWhile_sublist (p := (· != ')')) (l := text)).length_le
    rw [dropped, List.length_cons] at shorter
    exact shorter

namespace Table

/-- The value of a variable referred to at `position`. -/
def resolve (table : Table) (name : String) (position : Position) : Except ParseError String :=
  match table.get? name with
  | some value => .ok value
  | none => .error { cause := .undefinedVariable name, position }

/-- The text, which begins at `position`, with values in place of references. -/
def substitute (table : Table) (position : Position) : List Char → Except ParseError (List Char)
  | [] => .ok []
  | '$' :: '(' :: text =>
      match _split : splitReference? text with
      | none => .error { cause := .malformedReference, position }
      | some (name, behind) =>
          if isName name then do
            let value ← table.resolve (String.ofList name) position
            let reference := '$' :: '(' :: (name ++ [')'])
            let tail ← substitute table (position.advance reference) behind
            return value.toList ++ tail
          else .error { cause := .malformedReference, position }
  | c :: text => (substitute table (position.step c) text).map (c :: ·)
  termination_by text => text.length
  decreasing_by
    · have shorter : behind.length < text.length := length_lt_of_splitReference? _split
      simp only [List.length_cons]
      omega
    · simp

end Table
end Variable
end SqlScript
