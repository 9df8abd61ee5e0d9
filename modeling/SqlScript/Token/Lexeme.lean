import SqlScript.Text.Blank
import SqlScript.Token
import SqlScript.ParseError
import SqlScript.Variable

/-!
# Lexemes

A lexeme is the first token of a text without its coordinates, together with the text behind it.
Literals, quoted names and comments are taken whole, so nothing inside them is mistaken for a
separator, a command or a reference.  Separators and commands are recognized only where a line
begins; spaces before them form a lexeme of their own.  The main statement is
`Lexeme.append_of_scan?`: a lexeme and what follows it make up the text, and no lexeme is empty.
-/

namespace SqlScript

/-- What a stretch of text was recognized as. -/
inductive Form where
  | text
  | quotedString
  | quotedIdentifier
  | lineComment
  | blockComment
  | separator (repeatCount : Nat)
  /-- A command whose arguments stand behind `lead`. -/
  | command (kind : CommandKind) (lead arguments : List Char)
  | reference (name : List Char)
  deriving DecidableEq, Repr, Inhabited

namespace Form

/-- The class of a token of this form that begins at `start`. -/
def kindFrom (start : Position) : Form → TokenKind
  | text => .text
  | quotedString => .quotedString
  | quotedIdentifier => .quotedIdentifier
  | lineComment => .lineComment
  | blockComment => .blockComment
  | separator repeatCount => .separator repeatCount
  | command kind lead arguments =>
      .command
        { kind, arguments := String.ofList arguments, argumentsStart := start.advance lead }
  | reference name => .reference (String.ofList name)

end Form

/-- The first token of a text and the text behind it. -/
structure Lexeme where
  form : Form
  text : List Char
  rest : List Char
  /-- Whether a separator or a command may begin right behind it. -/
  freshLine : Bool
  deriving DecidableEq, Repr, Inhabited

namespace Lexeme

/-- A character that may indent a separator or a command. -/
def isIndent (c : Char) : Bool :=
  c == ' ' || c == '\t' || c == '\r'

/-- A character that does not end the line. -/
def isInLine (c : Char) : Bool :=
  c != '\n'

/-- Whether a line comment begins here. -/
def startsLineComment : List Char → Bool
  | '-' :: '-' :: _ => true
  | _ => false

/-- Whether the line ends here or goes on with a comment only. -/
def endsLine : List Char → Bool
  | [] => true
  | c :: rest => c == '\n' || startsLineComment (c :: rest)

/-- Whether a token other than text begins here. -/
def opensToken : List Char → Bool
  | '\x27' :: _ => true
  | '[' :: _ => true
  | '"' :: _ => true
  | '-' :: '-' :: _ => true
  | '/' :: '*' :: _ => true
  | '$' :: '(' :: _ => true
  | _ => false

/-- A character put in front of the first part of a split text. -/
def consFront (c : Char) (parts : List Char × List Char) : List Char × List Char :=
  (c :: parts.1, parts.2)

/-- Split behind the first `close` that is not doubled; a doubled one belongs to the first part. -/
def splitClosing (close : Char) : List Char → Option (List Char × List Char)
  | [] => none
  | [c] => if c = close then some ([c], []) else none
  | c :: d :: rest =>
      if c = close then
        if d = close then (splitClosing close rest).map fun parts => consFront c (consFront d parts)
        else some ([c], d :: rest)
      else (splitClosing close (d :: rest)).map (consFront c)

/-- Split behind the end of a comment inside which `depth` further comments are open. -/
def splitComment : (depth : Nat) → List Char → Option (List Char × List Char)
  | _, [] => none
  | depth, '/' :: '*' :: rest =>
      (splitComment (depth + 1) rest).map fun parts => consFront '/' (consFront '*' parts)
  | 0, '*' :: '/' :: rest => some (['*', '/'], rest)
  | depth + 1, '*' :: '/' :: rest =>
      (splitComment depth rest).map fun parts => consFront '*' (consFront '/' parts)
  | depth, c :: rest => (splitComment depth rest).map (consFront c)

/-- Split before the next token that is not text, or behind the end of the line. -/
def splitText : List Char → List Char × List Char
  | [] => ([], [])
  | c :: rest =>
      if opensToken (c :: rest) then ([], c :: rest)
      else if c = '\n' then ([c], rest)
      else consFront c (splitText rest)

/-- The line of text that begins with `first`, whatever `first` is. -/
def textFrom (first : Char) (rest : List Char) : Lexeme :=
  if first = '\n' then
    { form := .text, text := [first], rest, freshLine := true }
  else
    let parts := splitText rest
    { form := .text, text := first :: parts.1, rest := parts.2
      freshLine := parts.1.getLast? == some '\n' }

/-- A lexeme that begins with `opener` and ends where `parts?` splits the text behind it. -/
def closed (form : Form) (opener : List Char) (unclosed : ParseCause)
    (parts? : Option (List Char × List Char)) : Except ParseCause Lexeme :=
  match parts? with
  | none => .error unclosed
  | some parts =>
      .ok { form, text := opener ++ parts.1, rest := parts.2, freshLine := false }

/-- A reference behind its opener: a name on the same line, up to the closing parenthesis. -/
def referenceFrom (rest : List Char) : Except ParseCause Lexeme :=
  let isInside (c : Char) : Bool := c != ')' && isInLine c
  let name := rest.takeWhile isInside
  match rest.dropWhile isInside with
  | ')' :: behind =>
      if Variable.isName name then
        .ok { form := .reference name, text := '$' :: '(' :: (name ++ [')']), rest := behind
              freshLine := false }
      else .error .malformedReference
  | _ => .error .malformedReference

/-- The lexeme that begins a text where neither a separator nor a command may stand. -/
def inLine (first : Char) (rest : List Char) : Except ParseCause Lexeme :=
  match first, rest with
  | '\x27', _ => closed .quotedString [first] .unterminatedString (splitClosing first rest)
  | '[', _ => closed .quotedIdentifier [first] .unterminatedIdentifier (splitClosing ']' rest)
  | '"', _ => closed .quotedIdentifier [first] .unterminatedIdentifier (splitClosing first rest)
  | '-', '-' :: _ =>
      .ok { form := .lineComment, text := first :: rest.takeWhile isInLine
            rest := rest.dropWhile isInLine, freshLine := false }
  | '/', '*' :: behind =>
      closed .blockComment ['/', '*'] .unterminatedComment (splitComment 0 behind)
  | '$', '(' :: behind => referenceFrom behind
  | _, _ => .ok (textFrom first rest)

/-- The largest repeat count. -/
def maxRepeatCount : Nat :=
  UInt32.size - 1

/-- The separator at the start of a text: the letters of `GO` in any case, an optional count, and
nothing else on the line but a comment. -/
def separator? : List Char → Option (Except ParseCause Lexeme)
  | g :: o :: behind =>
      if Text.equalsIgnoringCase [g, o] ['g', 'o'] &&
          (endsLine behind || behind.head?.any isIndent) then
        let gap := behind.takeWhile isIndent
        let tail := behind.dropWhile isIndent
        let digits := tail.takeWhile Char.isDigit
        let rest := tail.dropWhile Char.isDigit
        if endsLine (rest.dropWhile isIndent) then
          if digits.isEmpty then
            some (.ok { form := .separator 1, text := [g, o], rest := behind, freshLine := false })
          else
            let count := Text.decimalValue digits
            if 0 < count && count ≤ maxRepeatCount then
              some (.ok { form := .separator count, text := g :: o :: (gap ++ digits), rest
                          freshLine := false })
            else some (.error (.invalidRepeatCount (String.ofList digits)))
        else none
      else none
  | _ => none

/-- A command whose name ends `lead`, with the rest of its line as arguments. -/
def commandLine (kind : CommandKind) (lead behind : List Char) : Lexeme :=
  let gap := behind.takeWhile isIndent
  let tail := behind.dropWhile isIndent
  let line := tail.takeWhile isInLine
  { form := .command kind (lead ++ gap) (Text.trimRight line)
    text := lead ++ gap ++ line
    rest := tail.dropWhile isInLine
    freshLine := false }

/-- The command behind a colon. -/
def commandFrom (behind : List Char) : Except ParseCause Lexeme :=
  let name := behind.takeWhile Text.isWordCharacter
  let tail := behind.dropWhile Text.isWordCharacter
  if Text.equalsIgnoringCase name ['o', 'n'] then
    let gap := tail.takeWhile isIndent
    let object := (tail.dropWhile isIndent).takeWhile Text.isWordCharacter
    let rest := (tail.dropWhile isIndent).dropWhile Text.isWordCharacter
    if Text.equalsIgnoringCase object ['e', 'r', 'r', 'o', 'r'] then
      .ok (commandLine .onError (':' :: (name ++ gap ++ object)) rest)
    else
      .error (.unknownCommand (String.ofList (Text.trimRight (name ++ ' ' :: object))))
  else
    match CommandKind.ofName? name with
    | some kind => .ok (commandLine kind (':' :: name) tail)
    | none => .error (.unknownCommand (String.ofList name))

/-- The separator or command at the start of a text. -/
def directive? : List Char → Option (Except ParseCause Lexeme)
  | ':' :: behind =>
      if behind.head?.any Char.isAlpha then some (commandFrom behind) else none
  | source => separator? source

/-- The separator or command of a line, preceded by its indentation if there is any. -/
def indentedDirective? (source : List Char) : Option (Except ParseCause Lexeme) :=
  let body := source.dropWhile isIndent
  (directive? body).map fun found =>
    match source.takeWhile isIndent with
    | [] => found
    | indent => .ok { form := .text, text := indent, rest := body, freshLine := true }

/-- The first lexeme of a text; an empty text has none. -/
def scan? (lineStart : Bool) : List Char → Option (Except ParseCause Lexeme)
  | [] => none
  | first :: rest =>
      match if lineStart then indentedDirective? (first :: rest) else none with
      | some found => some found
      | none => some (inLine first rest)

/-- The lexeme and the text behind it make up `source`, and the lexeme is not empty. -/
def Splits (lexeme : Lexeme) (source : List Char) : Prop :=
  lexeme.text ++ lexeme.rest = source ∧ lexeme.text ≠ []

theorem append_of_splitClosing {close : Char} {source : List Char}
    {parts : List Char × List Char} (found : splitClosing close source = some parts) :
    parts.1 ++ parts.2 = source := by
  fun_induction splitClosing close source generalizing parts with
  | case1 => simp at found
  | case2 => cases found; rfl
  | case3 => simp at found
  | case4 rest ih =>
      obtain ⟨inner, inner_eq, rfl⟩ := Option.map_eq_some_iff.mp found
      simp [consFront, ih inner_eq]
  | case5 => cases found; rfl
  | case6 c d rest c_close ih =>
      obtain ⟨inner, inner_eq, rfl⟩ := Option.map_eq_some_iff.mp found
      simp [consFront, ih inner_eq]

theorem append_of_splitComment {depth : Nat} {source : List Char}
    {parts : List Char × List Char} (found : splitComment depth source = some parts) :
    parts.1 ++ parts.2 = source := by
  fun_induction splitComment depth source generalizing parts with
  | case1 => simp at found
  | case2 depth rest ih =>
      obtain ⟨inner, inner_eq, rfl⟩ := Option.map_eq_some_iff.mp found
      simp [consFront, ih inner_eq]
  | case3 => cases found; rfl
  | case4 depth rest ih =>
      obtain ⟨inner, inner_eq, rfl⟩ := Option.map_eq_some_iff.mp found
      simp [consFront, ih inner_eq]
  | case5 depth c rest _ _ _ ih =>
      obtain ⟨inner, inner_eq, rfl⟩ := Option.map_eq_some_iff.mp found
      simp [consFront, ih inner_eq]

theorem splitText_append (source : List Char) :
    (splitText source).1 ++ (splitText source).2 = source := by
  fun_induction splitText source with
  | case1 => rfl
  | case2 => rfl
  | case3 => rfl
  | case4 c rest _ _ ih => simp [consFront, ih]

theorem textFrom_splits (first : Char) (rest : List Char) :
    (textFrom first rest).Splits (first :: rest) := by
  unfold textFrom
  split
  · simp [Splits]
  · simp [Splits, splitText_append]

theorem splits_of_closed {form : Form} {opener : List Char} {unclosed : ParseCause}
    {parts? : Option (List Char × List Char)} {behind : List Char} {lexeme : Lexeme}
    (opener_ne : opener ≠ []) (append : ∀ parts, parts? = some parts → parts.1 ++ parts.2 = behind)
    (found : closed form opener unclosed parts? = .ok lexeme) :
    lexeme.Splits (opener ++ behind) := by
  cases parts? with
  | none => simp [closed] at found
  | some parts =>
      simp only [closed, Except.ok.injEq] at found
      subst found
      simp [Splits, opener_ne, append parts rfl]

theorem splits_of_referenceFrom {behind : List Char} {lexeme : Lexeme}
    (found : referenceFrom behind = .ok lexeme) : lexeme.Splits ('$' :: '(' :: behind) := by
  unfold referenceFrom at found
  dsimp only at found
  split at found
  · rename_i after after_eq
    split at found
    · cases found
      refine ⟨?_, by simp⟩
      conv => rhs; rw [← List.takeWhile_append_dropWhile (p := fun c => c != ')' && isInLine c)
        (l := behind), after_eq]
      simp
    · simp at found
  · simp at found

theorem splits_of_inLine {first : Char} {rest : List Char} {lexeme : Lexeme}
    (found : inLine first rest = .ok lexeme) : lexeme.Splits (first :: rest) := by
  unfold inLine at found
  split at found
  · exact splits_of_closed (by simp) (fun _ => append_of_splitClosing) found
  · exact splits_of_closed (by simp) (fun _ => append_of_splitClosing) found
  · exact splits_of_closed (by simp) (fun _ => append_of_splitClosing) found
  · cases found
    simp [Splits]
  · exact splits_of_closed (by simp) (fun _ => append_of_splitComment) found
  · exact splits_of_referenceFrom found
  · cases found
    exact textFrom_splits _ _

theorem splits_of_separator? {source : List Char} {lexeme : Lexeme}
    (found : separator? source = some (.ok lexeme)) : lexeme.Splits source := by
  unfold separator? at found
  split at found
  · rename_i g o behind
    simp only at found
    split at found <;> try contradiction
    split at found <;> try contradiction
    split at found
    · cases found
      simp [Splits]
    · split at found
      · cases found
        simp [Splits]
      · simp at found
  · contradiction

theorem commandLine_splits (kind : CommandKind) (lead behind : List Char) (lead_ne : lead ≠ []) :
    (commandLine kind lead behind).Splits (lead ++ behind) := by
  simp [commandLine, Splits, lead_ne]

theorem splits_of_commandFrom {behind : List Char} {lexeme : Lexeme}
    (found : commandFrom behind = .ok lexeme) : lexeme.Splits (':' :: behind) := by
  unfold commandFrom at found
  simp only at found
  split at found
  · split at found <;> cases found
    have splits := commandLine_splits .onError
      (':' :: (behind.takeWhile Text.isWordCharacter ++
        (behind.dropWhile Text.isWordCharacter).takeWhile isIndent ++
        ((behind.dropWhile Text.isWordCharacter).dropWhile isIndent).takeWhile
          Text.isWordCharacter))
      (((behind.dropWhile Text.isWordCharacter).dropWhile isIndent).dropWhile
        Text.isWordCharacter) (by simp)
    simpa using splits
  · split at found <;> cases found
    rename_i kind _
    have splits := commandLine_splits kind (':' :: behind.takeWhile Text.isWordCharacter)
      (behind.dropWhile Text.isWordCharacter) (by simp)
    simpa using splits

theorem splits_of_directive? {source : List Char} {lexeme : Lexeme}
    (found : directive? source = some (.ok lexeme)) : lexeme.Splits source := by
  unfold directive? at found
  split at found
  · split at found
    · exact splits_of_commandFrom (Option.some.inj found)
    · contradiction
  · exact splits_of_separator? found

theorem splits_of_indentedDirective? {source : List Char} {lexeme : Lexeme}
    (found : indentedDirective? source = some (.ok lexeme)) : lexeme.Splits source := by
  obtain ⟨directive, directive_eq, found⟩ := Option.map_eq_some_iff.mp found
  split at found
  · rename_i indent_eq
    subst found
    have splits := splits_of_directive? directive_eq
    have whole := List.takeWhile_append_dropWhile (p := isIndent) (l := source)
    rw [indent_eq, List.nil_append] at whole
    rwa [whole] at splits
  · rename_i indent_ne
    cases found
    exact ⟨List.takeWhile_append_dropWhile, fun empty => indent_ne empty⟩

theorem append_of_scan? {lineStart : Bool} {source : List Char} {lexeme : Lexeme}
    (found : scan? lineStart source = some (.ok lexeme)) : lexeme.Splits source := by
  unfold scan? at found
  split at found
  · contradiction
  · split at found
    · rename_i first rest _ directive_eq
      cases lineStart with
      | false => simp at directive_eq
      | true =>
          cases found
          exact splits_of_indentedDirective? directive_eq
    · exact splits_of_inLine (Option.some.inj found)

theorem length_rest_lt {lineStart : Bool} {source : List Char} {lexeme : Lexeme}
    (found : scan? lineStart source = some (.ok lexeme)) : lexeme.rest.length < source.length := by
  obtain ⟨append_eq, text_ne⟩ := append_of_scan? found
  have length_pos := List.length_pos_iff.mpr text_ne
  rw [← append_eq, List.length_append]
  omega

end Lexeme
end SqlScript
