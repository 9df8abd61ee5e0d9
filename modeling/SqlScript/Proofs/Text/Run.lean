import SqlScript.Text.Ascii
import SqlScript.Text.Blank

/-!
# Runs of characters

A run is a longest stretch of characters of one class.  Taking and dropping characters while a test
holds cut a text at the end of its first run, and nowhere else.
-/

namespace SqlScript
namespace Text

/-- The text `source` begins with the run `run` of characters that pass `test`, followed by
`rest`. -/
structure Run (test : Char → Bool) (source run rest : List Char) : Prop where
  append_eq : run ++ rest = source
  inside : ∀ c ∈ run, test c = true
  /-- The run ends because the next character is not of the class. -/
  boundary : ∀ c ∈ rest.head?, test c = false

theorem run_takeWhile (test : Char → Bool) (source : List Char) :
    Run test source (source.takeWhile test) (source.dropWhile test) where
  append_eq := List.takeWhile_append_dropWhile
  inside := List.all_eq_true.mp List.all_takeWhile
  boundary := by
    intro c head
    have stopped := List.head?_dropWhile_not test source
    rw [Option.mem_def.mp head] at stopped
    simpa using stopped

namespace Run

variable {test : Char → Bool} {source run rest : List Char}

theorem takeWhile_eq (split : Run test source run rest) : source.takeWhile test = run := by
  rw [← split.append_eq, List.takeWhile_append_of_pos split.inside]
  cases rest with
  | nil => simp
  | cons c rest => simp [split.boundary c rfl]

theorem dropWhile_eq (split : Run test source run rest) : source.dropWhile test = rest := by
  rw [← split.append_eq, List.dropWhile_append_of_pos split.inside]
  cases rest with
  | nil => rfl
  | cons c rest => simp [split.boundary c rfl]

/-- A text has one first run. -/
theorem unique {run' rest' : List Char} (split : Run test source run rest)
    (split' : Run test source run' rest') : run = run' ∧ rest = rest' :=
  ⟨split.takeWhile_eq.symm.trans split'.takeWhile_eq,
    split.dropWhile_eq.symm.trans split'.dropWhile_eq⟩

end Run
end Text
end SqlScript
