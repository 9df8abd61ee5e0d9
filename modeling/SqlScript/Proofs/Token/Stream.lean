import SqlScript.Proofs.Token.Scan
import SqlScript.Token.Lexer

/-!
# Places in a row of tokens

A place in a text is given by the text before it.  A token begins at a place, a lexing fails at a
place, and a place lies inside a token; each of these is followed from the text behind a first token
back to the whole text.  What holds of every token or of the error of a run is shown by induction on
the tokens before it.
-/

namespace SqlScript

/-- The text of a row of tokens. -/
def Token.textOf (tokens : List Token) : List Char :=
  tokens.flatMap fun token => token.text.toList

@[simp]
theorem Token.textOf_nil : textOf [] = [] := rfl

@[simp]
theorem Token.textOf_cons (token : Token) (tokens : List Token) :
    textOf (token :: tokens) = token.text.toList ++ textOf tokens := rfl

@[simp]
theorem Token.textOf_append (front back : List Token) :
    textOf (front ++ back) = textOf front ++ textOf back :=
  List.flatMap_append

@[simp]
theorem Lexeme.text_tokenFrom (start : Position) (lexeme : Lexeme) :
    (lexeme.tokenFrom start).text.toList = lexeme.text := by
  simp [tokenFrom]

/-- Whether such a token may contain line feeds that begin no line of their own. -/
def TokenKind.isOpaque : TokenKind → Bool
  | quotedString | quotedIdentifier | blockComment => true
  | _ => false

/-- Whether such a token directs the build instead of giving text to a batch. -/
def TokenKind.isDirective : TokenKind → Bool
  | separator _ | command _ => true
  | _ => false

@[simp]
theorem Form.isOpaque_kindFrom (start : Position) (form : Form) :
    (form.kindFrom start).isOpaque = form.isOpaque := by
  cases form <;> rfl

@[simp]
theorem Form.isDirective_kindFrom (start : Position) (form : Form) :
    (form.kindFrom start).isDirective = form.isDirective := by
  cases form <;> rfl

namespace Lexing

/-- The text that was turned into tokens. -/
def text (lexing : Lexing) : List Char :=
  Token.textOf lexing.tokens

@[simp]
theorem text_cons (token : Token) (lexing : Lexing) :
    (cons token lexing).text = token.text.toList ++ lexing.text := rfl

/-- The token `token` begins behind the text `before`. -/
def Emits (lexing : Lexing) (before : List Char) (token : Token) : Prop :=
  ∃ earlier later, lexing.tokens = earlier ++ token :: later ∧ Token.textOf earlier = before

/-- The text is lexed up to `before`, where an error ends the lexing. -/
def FailsAt (lexing : Lexing) (before : List Char) (failure : ParseError) : Prop :=
  lexing.text = before ∧ lexing.failure = some failure

/-- The end of `line` lies inside a quoted string, a quoted identifier or a block comment. -/
def Inside (lexing : Lexing) (line : List Char) : Prop :=
  ∃ before token inner outer, lexing.Emits before token ∧ token.kind.isOpaque = true ∧
    token.text.toList = inner ++ outer ∧ inner ≠ [] ∧ outer ≠ [] ∧ line = before ++ inner

/-- Only spaces, tabs and carriage returns stand between the beginning of a line and the place
behind `before`.  A line begins behind a line feed that lies outside opaque tokens; `lineStart` says
whether one begins with the text. -/
def AtLineStart (lexing : Lexing) (before : List Char) (lineStart : Bool := true) : Prop :=
  ∃ line indent, before = line ++ indent ∧ (∀ c ∈ indent, Lexeme.isIndent c = true) ∧
    (line = [] ∧ lineStart = true ∨ line.getLast? = some '\n') ∧ ¬lexing.Inside line

theorem emits_cons {first token : Token} {lexing : Lexing} {before : List Char} :
    (cons first lexing).Emits before token ↔
      before = [] ∧ token = first ∨
        ∃ later, before = first.text.toList ++ later ∧ lexing.Emits later token := by
  constructor
  · rintro ⟨earlier, later, tokens_eq, rfl⟩
    cases earlier with
    | nil =>
        cases tokens_eq
        exact .inl ⟨rfl, rfl⟩
    | cons head earlier =>
        obtain ⟨rfl, tail_eq⟩ := List.cons.inj tokens_eq
        exact .inr ⟨_, rfl, earlier, later, tail_eq, rfl⟩
  · rintro (⟨rfl, rfl⟩ | ⟨_, rfl, earlier, later, tokens_eq, rfl⟩)
    · exact ⟨[], lexing.tokens, rfl, rfl⟩
    · exact ⟨first :: earlier, later, by simp [cons, tokens_eq], rfl⟩

theorem failsAt_cons {first : Token} {lexing : Lexing} {before : List Char}
    {failure : ParseError} :
    (cons first lexing).FailsAt before failure ↔
      ∃ later, before = first.text.toList ++ later ∧ lexing.FailsAt later failure := by
  constructor
  · rintro ⟨rfl, failure_eq⟩
    exact ⟨lexing.text, rfl, rfl, failure_eq⟩
  · rintro ⟨later, rfl, rfl, failure_eq⟩
    exact ⟨rfl, failure_eq⟩

theorem not_inside_nil (lexing : Lexing) : ¬lexing.Inside [] := by
  rintro ⟨before, token, inner, outer, -, -, -, inner_ne, -, line_eq⟩
  exact inner_ne (List.append_eq_nil_iff.mp line_eq.symm).2

theorem inside_of_isOpaque {first : Token} {lexing : Lexing} {line outer : List Char}
    (opaque_eq : first.kind.isOpaque = true) (split : first.text.toList = line ++ outer)
    (line_ne : line ≠ []) (outer_ne : outer ≠ []) : (cons first lexing).Inside line :=
  ⟨[], first, line, outer, emits_cons.mpr (.inl ⟨rfl, rfl⟩), opaque_eq, split, line_ne, outer_ne,
    rfl⟩

theorem inside_cons_append (first : Token) (lexing : Lexing) (line : List Char) :
    (cons first lexing).Inside (first.text.toList ++ line) ↔ lexing.Inside line := by
  constructor
  · rintro ⟨before, token, inner, outer, emits, opaque_eq, split, inner_ne, outer_ne, line_eq⟩
    rcases emits_cons.mp emits with ⟨rfl, rfl⟩ | ⟨later, rfl, emits_later⟩
    · have lengths := congrArg List.length line_eq
      rw [split] at lengths
      simp only [List.length_append, List.length_nil] at lengths
      have outer_length := List.length_pos_iff.mpr outer_ne
      omega
    · rw [List.append_assoc] at line_eq
      exact ⟨later, token, inner, outer, emits_later, opaque_eq, split, inner_ne, outer_ne,
        List.append_cancel_left line_eq⟩
  · rintro ⟨before, token, inner, outer, emits, opaque_eq, split, inner_ne, outer_ne, rfl⟩
    exact ⟨first.text.toList ++ before, token, inner, outer,
      emits_cons.mpr (.inr ⟨before, rfl, emits⟩), opaque_eq, split, inner_ne, outer_ne,
      by rw [List.append_assoc]⟩

variable {lineStart : Bool} {source before : List Char} {start : Position}

theorem not_emits_nil {failure : Option ParseError} {token : Token} :
    ¬Emits { tokens := [], failure } before token := by
  rintro ⟨earlier, later, tokens_eq, -⟩
  exact absurd tokens_eq.symm (List.append_ne_nil_of_right_ne_nil earlier (by simp))

/-- Every token is the first one of a run or a token of the run behind the first one. -/
@[elab_as_elim]
theorem emits_induction {motive : Position → Bool → List Char → List Char → Token → Prop}
    (here : ∀ start lineStart source lexeme, Lexeme.scan? lineStart source = some (.ok lexeme) →
      motive start lineStart source [] (lexeme.tokenFrom start))
    (later : ∀ start lineStart source lexeme before token,
      Lexeme.scan? lineStart source = some (.ok lexeme) →
        motive (start.advance lexeme.text) lexeme.freshLine lexeme.rest before token →
          motive start lineStart source (lexeme.text ++ before) token)
    {token : Token} (emits : (run start lineStart source).Emits before token) :
    motive start lineStart source before token := by
  induction start, lineStart, source using run_induction generalizing before with
  | finished start lineStart source scanned =>
      rw [run_of_finished start scanned] at emits
      exact (not_emits_nil emits).elim
  | failed start lineStart source cause scanned =>
      rw [run_of_failed start scanned] at emits
      exact (not_emits_nil emits).elim
  | token start lineStart source lexeme scanned ih =>
      rw [run_of_lexeme start scanned] at emits
      rcases emits_cons.mp emits with ⟨rfl, rfl⟩ | ⟨behind, rfl, emits_later⟩
      · exact here start lineStart source lexeme scanned
      · rw [Lexeme.text_tokenFrom]
        exact later start lineStart source lexeme behind token scanned (ih emits_later)

/-- The error of a run stands at its beginning or is the error of the run behind the first token. -/
@[elab_as_elim]
theorem failsAt_induction {motive : Position → Bool → List Char → List Char → ParseError → Prop}
    (here : ∀ start lineStart source cause, Lexeme.scan? lineStart source = some (.error cause) →
      motive start lineStart source [] { cause, position := start })
    (later : ∀ start lineStart source lexeme before failure,
      Lexeme.scan? lineStart source = some (.ok lexeme) →
        motive (start.advance lexeme.text) lexeme.freshLine lexeme.rest before failure →
          motive start lineStart source (lexeme.text ++ before) failure)
    {failure : ParseError} (fails : (run start lineStart source).FailsAt before failure) :
    motive start lineStart source before failure := by
  induction start, lineStart, source using run_induction generalizing before with
  | finished start lineStart source scanned =>
      rw [run_of_finished start scanned] at fails
      simp [FailsAt] at fails
  | failed start lineStart source cause scanned =>
      rw [run_of_failed start scanned] at fails
      obtain ⟨rfl, failure_eq⟩ := fails
      obtain rfl := Option.some.inj failure_eq
      exact here start lineStart source cause scanned
  | token start lineStart source lexeme scanned ih =>
      rw [run_of_lexeme start scanned] at fails
      obtain ⟨behind, rfl, fails_later⟩ := failsAt_cons.mp fails
      rw [Lexeme.text_tokenFrom]
      exact later start lineStart source lexeme behind failure scanned (ih fails_later)

/-- Each token is what a scan finds behind the tokens before it. -/
theorem scan?_of_emits {token : Token} (emits : (run start lineStart source).Emits before token) :
    ∃ fresh behind lexeme, source = before ++ behind ∧
      Lexeme.scan? fresh behind = some (.ok lexeme) ∧
        token = lexeme.tokenFrom (start.advance before) := by
  refine emits_induction ?here ?later emits
  case here =>
    intro start lineStart source lexeme scanned
    exact ⟨lineStart, source, lexeme, rfl, scanned, rfl⟩
  case later =>
    intro start lineStart source lexeme before token scanned ih
    obtain ⟨fresh, behind, found, rest_eq, found_scanned, token_eq⟩ := ih
    refine ⟨fresh, behind, found, ?_, found_scanned, ?_⟩
    · rw [List.append_assoc, ← rest_eq, (Lexeme.append_of_scan? scanned).1]
    · rw [Position.advance_append]
      exact token_eq

/-- The error of a run is what a scan finds behind its tokens. -/
theorem scan?_of_failsAt {failure : ParseError}
    (fails : (run start lineStart source).FailsAt before failure) :
    ∃ fresh behind, source = before ++ behind ∧
      Lexeme.scan? fresh behind = some (.error failure.cause) := by
  refine failsAt_induction ?here ?later fails
  case here =>
    intro start lineStart source cause scanned
    exact ⟨lineStart, source, rfl, scanned⟩
  case later =>
    intro start lineStart source lexeme before failure scanned ih
    obtain ⟨fresh, behind, rest_eq, found⟩ := ih
    refine ⟨fresh, behind, ?_, found⟩
    rw [List.append_assoc, ← rest_eq, (Lexeme.append_of_scan? scanned).1]

theorem prefix_of_emits {lexing : Lexing} {token : Token} (emits : lexing.Emits before token) :
    before <+: lexing.text := by
  obtain ⟨earlier, later, tokens_eq, rfl⟩ := emits
  rw [Lexing.text, tokens_eq, Token.textOf_append]
  exact List.prefix_append _ _

theorem coordinates_of_emits {token : Token}
    (emits : (run start lineStart source).Emits before token) :
    token.start = start.advance before ∧ token.stop = token.start.advance token.text.toList := by
  refine emits_induction ?here ?later emits
  case here =>
    intro start lineStart source lexeme scanned
    exact ⟨rfl, by rw [Lexeme.text_tokenFrom]; rfl⟩
  case later =>
    intro start lineStart source lexeme before token scanned ih
    rw [Position.advance_append]
    exact ih

theorem position_of_failsAt {failure : ParseError}
    (fails : (run start lineStart source).FailsAt before failure) :
    failure.position = start.advance before := by
  refine failsAt_induction ?here ?later fails
  case here => intros; rfl
  case later =>
    intro start lineStart source lexeme before failure scanned ih
    rw [Position.advance_append]
    exact ih

/-- A row of tokens is only had from a text without an error. -/
theorem ofText_of_tokenize {file : SourceFile} {text : String} {tokens : List Token}
    (tokens_eq : tokenize file text = .ok tokens) :
    ofText file text = { tokens, failure := none } := by
  unfold tokenize result at tokens_eq
  split at tokens_eq
  · rename_i no_failure
    rw [← Except.ok.inj tokens_eq, ← no_failure]
  · contradiction

end Lexing
end SqlScript
