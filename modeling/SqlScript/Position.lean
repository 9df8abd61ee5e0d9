/-!
# Positions in source texts

A position names a file, a line, a column and a byte offset.  Reading a character moves it; reading
a text moves it character by character, so that reading two texts in turn is reading their
concatenation (`Position.advance_append`).
-/

namespace SqlScript

/-- The text a position belongs to. -/
inductive SourceFile where
  | script
  /-- A file drawn in by an include directive, known by its resolved path. -/
  | included (path : String)
  deriving DecidableEq, Repr, Inhabited

namespace SourceFile

/-- The resolved path of an included file; the script has none. -/
def path? : SourceFile → Option String
  | script => none
  | included path => some path

/-- Whether the file is the script itself. -/
def isScript : SourceFile → Bool
  | script => true
  | included _ => false

/-- How the file is named in messages. -/
def display : SourceFile → String
  | script => "<script>"
  | included path => path

end SourceFile

/-- A point in a source file. -/
structure Position where
  file : SourceFile
  /-- Line number, counted from one. -/
  line : UInt32
  /-- Column number, counted in characters from one. -/
  column : UInt32
  /-- Number of bytes before the point. -/
  offset : Nat
  deriving DecidableEq, Repr, Inhabited

namespace Position

/-- The first point of a file. -/
def startOf (file : SourceFile) : Position :=
  { file, line := 1, column := 1, offset := 0 }

/-- The point after one character; only a line feed ends a line. -/
def step (position : Position) (c : Char) : Position :=
  if c = '\n' then
    { position with
      line := position.line + 1, column := 1, offset := position.offset + c.utf8Size }
  else
    { position with column := position.column + 1, offset := position.offset + c.utf8Size }

/-- The point after a text. -/
def advance (position : Position) (text : List Char) : Position :=
  text.foldl step position

/-- How the point is shown: file, line and column. -/
def display (position : Position) : String :=
  position.file.display ++ ":" ++ toString position.line.toNat ++ ":" ++
    toString position.column.toNat

@[simp]
theorem step_file (position : Position) (c : Char) : (position.step c).file = position.file := by
  unfold step
  split <;> rfl

@[simp]
theorem step_offset (position : Position) (c : Char) :
    (position.step c).offset = position.offset + c.utf8Size := by
  unfold step
  split <;> rfl

@[simp]
theorem advance_nil (position : Position) : position.advance [] = position :=
  rfl

@[simp]
theorem advance_cons (position : Position) (c : Char) (text : List Char) :
    position.advance (c :: text) = (position.step c).advance text :=
  rfl

theorem advance_append (position : Position) (front back : List Char) :
    position.advance (front ++ back) = (position.advance front).advance back :=
  List.foldl_append

@[simp]
theorem advance_file (position : Position) (text : List Char) :
    (position.advance text).file = position.file := by
  induction text generalizing position with
  | nil => rfl
  | cons c text ih => rw [advance_cons, ih, step_file]

theorem le_offset_advance (position : Position) (text : List Char) :
    position.offset ≤ (position.advance text).offset := by
  induction text generalizing position with
  | nil => exact Nat.le_refl _
  | cons c text ih =>
      rw [advance_cons]
      exact Nat.le_trans (by simp) (ih (position.step c))

end Position

/-- A region of source text from `start` up to, but without, `stop`. -/
structure Span where
  start : Position
  stop : Position
  deriving DecidableEq, Repr, Inhabited

namespace Span

/-- How the region is shown; a file shared by both ends is named once. -/
def display (span : Span) : String :=
  if span.start.file = span.stop.file then
    span.start.display ++ "-" ++ toString span.stop.line.toNat ++ ":" ++
      toString span.stop.column.toNat
  else
    span.start.display ++ "-" ++ span.stop.display

end Span
end SqlScript
