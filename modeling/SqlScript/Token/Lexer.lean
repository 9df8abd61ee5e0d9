import SqlScript.Token.Lexeme

/-!
# Lexing

A lexer takes lexeme after lexeme from a text and gives each its coordinates: a token begins where
the one before it ended.  It ends with the text or at the first error, which is placed where the
token that could not be completed begins; behind an error there is nothing (`Lexer.items_failed`).
-/

namespace SqlScript

/-- The lexeme as a token that begins at `start`. -/
def Lexeme.tokenFrom (start : Position) (lexeme : Lexeme) : Token where
  kind := lexeme.form.kindFrom start
  text := String.ofList lexeme.text
  start := start
  stop := start.advance lexeme.text

/-- A lexer between two tokens. -/
structure Lexer where
  position : Position
  /-- Whether a separator or a command may begin there. -/
  lineStart : Bool
  rest : List Char
  failed : Bool := false
  deriving DecidableEq, Repr, Inhabited

namespace Lexer

/-- The lexer of a whole file. -/
def ofText (file : SourceFile) (text : String) : Lexer where
  position := Position.startOf file
  lineStart := true
  rest := text.toList

/-- The next token, or the error in its place, and the lexer behind it. -/
def next? (lexer : Lexer) : Option (Except ParseError Token × Lexer) :=
  if lexer.failed then none
  else
    match Lexeme.scan? lexer.lineStart lexer.rest with
    | none => none
    | some (.error cause) =>
        some (.error { cause, position := lexer.position }, { lexer with failed := true })
    | some (.ok lexeme) =>
        some (.ok (lexeme.tokenFrom lexer.position),
          { lexer with
            position := lexer.position.advance lexeme.text
            lineStart := lexeme.freshLine
            rest := lexeme.rest })

/-- A bound on the number of items to come. -/
def remaining (lexer : Lexer) : Nat :=
  lexer.rest.length + if lexer.failed then 0 else 1

theorem remaining_of_next? {lexer next : Lexer} {item : Except ParseError Token}
    (found : lexer.next? = some (item, next)) : next.remaining < lexer.remaining := by
  unfold next? at found
  split at found
  · contradiction
  · rename_i not_failed
    split at found
    · contradiction
    · cases found
      simp [remaining, not_failed]
    · rename_i lexeme scanned
      cases found
      simp [remaining, not_failed, Lexeme.length_rest_lt scanned]

/-- All that comes when the lexer is asked for its next item until there is none. -/
def items (lexer : Lexer) : List (Except ParseError Token) :=
  match _found : lexer.next? with
  | none => []
  | some (item, next) => item :: next.items
  termination_by lexer.remaining
  decreasing_by exact remaining_of_next? _found

theorem items_of_none {lexer : Lexer} (found : lexer.next? = none) : lexer.items = [] := by
  rw [items]
  split <;> simp_all

theorem items_of_some {lexer next : Lexer} {item : Except ParseError Token}
    (found : lexer.next? = some (item, next)) : lexer.items = item :: next.items := by
  rw [items]
  split <;> simp_all

theorem items_failed {lexer : Lexer} (failed : lexer.failed = true) : lexer.items = [] :=
  items_of_none (by simp [next?, failed])

end Lexer

/-- The tokens of a text, up to its end or to its first error. -/
structure Lexing where
  tokens : List Token
  failure : Option ParseError
  deriving DecidableEq, Repr, Inhabited

namespace Lexing

/-- A token put before the others. -/
def cons (token : Token) (lexing : Lexing) : Lexing :=
  { lexing with tokens := token :: lexing.tokens }

/-- All tokens of a text, provided that it has no error. -/
def result (lexing : Lexing) : Except ParseError (List Token) :=
  match lexing.failure with
  | none => .ok lexing.tokens
  | some failure => .error failure

/-- What came from a lexer, up to the first error. -/
def ofItems : List (Except ParseError Token) → Lexing
  | [] => { tokens := [], failure := none }
  | .error failure :: _ => { tokens := [], failure := some failure }
  | .ok token :: rest => cons token (ofItems rest)

/-- The tokens of a text whose first character stands at `start`. -/
def run (start : Position) (lineStart : Bool) (source : List Char) : Lexing :=
  ofItems { position := start, lineStart, rest := source : Lexer }.items

theorem run_of_finished (start : Position) {lineStart : Bool} {source : List Char}
    (scanned : Lexeme.scan? lineStart source = none) :
    run start lineStart source = { tokens := [], failure := none } := by
  rw [run, Lexer.items_of_none (by simp [Lexer.next?, scanned])]
  rfl

theorem run_of_failed (start : Position) {lineStart : Bool} {source : List Char}
    {cause : ParseCause} (scanned : Lexeme.scan? lineStart source = some (.error cause)) :
    run start lineStart source =
      { tokens := [], failure := some { cause, position := start } } := by
  rw [run, Lexer.items_of_some (by simp [Lexer.next?, scanned]; exact ⟨rfl, rfl⟩)]
  rfl

theorem run_of_lexeme (start : Position) {lineStart : Bool} {source : List Char}
    {lexeme : Lexeme} (scanned : Lexeme.scan? lineStart source = some (.ok lexeme)) :
    run start lineStart source =
      cons (lexeme.tokenFrom start)
        (run (start.advance lexeme.text) lexeme.freshLine lexeme.rest) := by
  rw [run, Lexer.items_of_some (by simp [Lexer.next?, scanned]; exact ⟨rfl, rfl⟩)]
  rfl

/-- A property of texts holds if it passes from the text behind a lexeme to the text before it. -/
@[elab_as_elim]
theorem run_induction {motive : Position → Bool → List Char → Prop}
    (finished : ∀ start lineStart source,
      Lexeme.scan? lineStart source = none → motive start lineStart source)
    (failed : ∀ start lineStart source cause,
      Lexeme.scan? lineStart source = some (.error cause) → motive start lineStart source)
    (token : ∀ start lineStart source lexeme,
      Lexeme.scan? lineStart source = some (.ok lexeme) →
        motive (start.advance lexeme.text) lexeme.freshLine lexeme.rest →
          motive start lineStart source)
    (start : Position) (lineStart : Bool) (source : List Char) : motive start lineStart source :=
  match scanned : Lexeme.scan? lineStart source with
  | none => finished start lineStart source scanned
  | some (.error cause) => failed start lineStart source cause scanned
  | some (.ok lexeme) =>
      token start lineStart source lexeme scanned
        (run_induction finished failed token _ _ lexeme.rest)
  termination_by source.length
  decreasing_by exact Lexeme.length_rest_lt scanned

/-- The tokens of a whole file. -/
def ofText (file : SourceFile) (text : String) : Lexing :=
  run (Position.startOf file) true text.toList

/-- The text behind its first `count` bytes. -/
def dropBytes : (count : Nat) → List Char → List Char
  | 0, text => text
  | _ + 1, [] => []
  | count + 1, c :: rest => dropBytes (count + 1 - c.utf8Size) rest

/-- The tokens from a token boundary on; its column tells whether a line begins there. -/
def resume (text : String) (position : Position) : Lexing :=
  let offset := min position.offset text.utf8ByteSize
  run { position with offset } (position.column == 1) (dropBytes offset text.toList)

end Lexing

/-- The tokens of a file, or its first error. -/
def tokenize (file : SourceFile) (text : String) : Except ParseError (List Token) :=
  (Lexing.ofText file text).result

end SqlScript
