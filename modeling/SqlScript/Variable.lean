import SqlScript.Text.Ascii

/-!
# Variable names

A variable name begins with an ASCII letter or an underscore and goes on with ASCII letters, digits,
underscores and hyphens.  Names that differ only in the case of letters name the same variable; the
key of a name is its spelling in capitals.
-/

namespace SqlScript

/-- A variable as it was last assigned. -/
structure Variable where
  /-- The spelling used by the assignment. -/
  name : String
  value : String
  deriving DecidableEq, Repr, Inhabited

namespace Variable

/-- A character with which a name may begin. -/
def isNameStart (c : Char) : Bool :=
  c.isAlpha || c == '_'

/-- A character with which a name may go on. -/
def isNamePart (c : Char) : Bool :=
  c.isAlphanum || c == '_' || c == '-'

/-- Whether a text can be used as a name. -/
def isName : List Char → Bool
  | [] => false
  | first :: rest => isNameStart first && rest.all isNamePart

/-- Names consist of the characters with which they may go on. -/
theorem isNamePart_of_isName {name : List Char} (is_name : isName name = true) :
    ∀ c ∈ name, isNamePart c = true := by
  cases name with
  | nil => simp
  | cons first rest =>
      obtain ⟨start, parts⟩ := Bool.and_eq_true_iff.mp is_name
      refine List.forall_mem_cons.mpr ⟨?_, List.all_eq_true.mp parts⟩
      rcases Bool.or_eq_true_iff.mp start with letter | underscore
      · simp [isNamePart, Char.isAlphanum, letter]
      · simp [isNamePart, underscore]

/-- The spelling under which a name is looked up. -/
def keyOf (name : String) : String :=
  String.ofList (Text.uppercase name.toList)

/-- The spelling under which the variable is found. -/
def key (entry : Variable) : String :=
  keyOf entry.name

end Variable
end SqlScript
