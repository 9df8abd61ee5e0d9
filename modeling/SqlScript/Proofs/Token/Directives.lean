import SqlScript.Proofs.Token.Stream

/-!
# Where separators and commands are recognized

The line-start mark that a lexer carries from token to token is compared with the lines of the whole
text.  A place that only indentation parts from the beginning of a line stays such a place when a
first token is put before the text, and when the first token is taken away from it.
-/

namespace SqlScript

namespace Lexing

open Lexeme (directive? scan?)

variable {lineStart : Bool} {source before behind : List Char} {start : Position}

theorem eq_true_of_atLineStart_nil {lexing : Lexing} (place : lexing.AtLineStart [] lineStart) :
    lineStart = true := by
  obtain ⟨line, indent, parts, -, ⟨-, is_start⟩ | last, -⟩ := place
  · exact is_start
  · simp [(List.append_eq_nil_iff.mp parts.symm).1] at last

theorem atLineStart_nil (lexing : Lexing) : lexing.AtLineStart [] true :=
  ⟨[], [], rfl, by simp, .inl ⟨rfl, rfl⟩, not_inside_nil lexing⟩

/-- A beginning of a line behind the first token is one in the whole text. -/
theorem atLineStart_cons {lexing : Lexing} {lexeme : Lexeme}
    (scanned : scan? lineStart source = some (.ok lexeme))
    (place : lexing.AtLineStart before lexeme.freshLine) :
    (cons (lexeme.tokenFrom start) lexing).AtLineStart (lexeme.text ++ before) lineStart := by
  have line_wise := Lexeme.lineWise_of_scan? scanned
  have inside_iff (line : List Char) :
      (cons (lexeme.tokenFrom start) lexing).Inside (lexeme.text ++ line) ↔ lexing.Inside line := by
    simpa using inside_cons_append (lexeme.tokenFrom start) lexing line
  obtain ⟨line, indent, rfl, indent_inside, ⟨rfl, is_fresh⟩ | last, outside⟩ := place
  · rcases line_wise.fresh is_fresh with last | ⟨is_start, text_indent⟩
    · refine ⟨lexeme.text, indent, rfl, indent_inside, .inr last, fun inside => ?_⟩
      exact not_inside_nil lexing ((inside_iff []).mp (by simpa using inside))
    · refine ⟨[], lexeme.text ++ indent, rfl, ?_, .inl ⟨rfl, is_start⟩, not_inside_nil _⟩
      exact List.forall_mem_append.mpr ⟨text_indent, indent_inside⟩
  · refine ⟨lexeme.text ++ line, indent, by rw [List.append_assoc], indent_inside, .inr ?_,
      fun inside => outside ((inside_iff line).mp inside)⟩
    rw [List.getLast?_append, last]
    rfl

/-- Indentation before a separator or a command is a token of its own. -/
theorem lexeme_of_indented {found : Except ParseCause Lexeme} {lexeme : Lexeme}
    {indent : List Char} (scanned : scan? true (indent ++ behind) = some (.ok lexeme))
    (indent_ne : indent ≠ []) (inside : ∀ c ∈ indent, Lexeme.isIndent c = true)
    (found_eq : directive? behind = some found) :
    lexeme.text = indent ∧ lexeme.freshLine = true := by
  have expected := Lexeme.scan?_of_scans (.indent indent_ne inside found_eq)
  cases scanned.symm.trans expected
  exact ⟨rfl, rfl⟩

/-- Where a separator or a command stands at the beginning of a line, tokens neither jump over the
place nor take the beginning of the line away from it. -/
theorem atLineStart_behind {found : Except ParseCause Lexeme} {lexing : Lexing} {lexeme : Lexeme}
    (scanned : scan? lineStart (before ++ behind) = some (.ok lexeme)) (before_ne : before ≠ [])
    (found_eq : directive? behind = some found)
    (place : (cons (lexeme.tokenFrom start) lexing).AtLineStart before lineStart) :
    ∃ later, before = lexeme.text ++ later ∧ lexing.AtLineStart later lexeme.freshLine := by
  have line_wise := Lexeme.lineWise_of_scan? scanned
  obtain ⟨append_eq, text_ne⟩ := Lexeme.append_of_scan? scanned
  obtain ⟨line, indent, rfl, indent_inside, begins, outside⟩ := place
  rcases begins with ⟨rfl, rfl⟩ | last
  · obtain ⟨text_eq, is_fresh⟩ :=
      lexeme_of_indented scanned before_ne indent_inside found_eq
    refine ⟨[], by simp [text_eq], ?_⟩
    rw [is_fresh]
    exact atLineStart_nil lexing
  · have line_ne : line ≠ [] := fun empty => by simp [empty] at last
    rw [List.append_assoc] at append_eq
    rcases List.append_eq_append_iff.mp append_eq with ⟨later, line_eq, -⟩ | ⟨outer, text_eq, -⟩
    · refine ⟨later ++ indent, by rw [line_eq, List.append_assoc], later, indent, rfl,
        indent_inside, ?_, fun inside => outside ?_⟩
      · cases later with
        | nil => exact .inl ⟨rfl, line_wise.last (by simpa [line_eq] using last)⟩
        | cons c later => exact .inr (by simpa [line_eq, List.getLast?_append] using last)
      · have whole := (inside_cons_append (lexeme.tokenFrom start) lexing later).mpr inside
        simpa [line_eq] using whole
    · cases outer with
      | nil =>
          have whole : lexeme.text = line := by simpa using text_eq
          refine ⟨indent, by rw [whole], [], indent, rfl, indent_inside,
            .inl ⟨rfl, line_wise.last (whole ▸ last)⟩, not_inside_nil lexing⟩
      | cons c outer =>
          -- The token goes on behind the line feed, so the line begins inside an opaque token.
          have feed_inner : '\n' ∈ lexeme.text.dropLast := by
            rw [text_eq, List.dropLast_append_of_ne_nil (by simp)]
            exact List.mem_append_left _ (List.mem_of_getLast? last)
          refine (outside (inside_of_isOpaque ?_ (by simpa using text_eq) line_ne (by simp))).elim
          rw [← line_wise.inner feed_inner]
          exact Form.isOpaque_kindFrom start lexeme.form

theorem place_of_emits {token : Token} (emits : (run start lineStart source).Emits before token) :
    token.kind.isDirective = true →
      ∃ behind lexeme, source = before ++ behind ∧
        (run start lineStart source).AtLineStart before lineStart ∧
          directive? behind = some (.ok lexeme) ∧
          token = lexeme.tokenFrom (start.advance before) := by
  refine emits_induction ?here ?later emits
  case here =>
    intro start lineStart source lexeme scanned is_directive
    obtain ⟨rfl, found_eq⟩ := Lexeme.directive?_of_scan? scanned
      (by simpa [Lexeme.tokenFrom] using is_directive)
    exact ⟨source, lexeme, rfl, atLineStart_nil _, found_eq, rfl⟩
  case later =>
    intro start lineStart source lexeme before token scanned ih is_directive
    obtain ⟨behind, found, rest_eq, place, found_eq, token_eq⟩ := ih is_directive
    rw [run_of_lexeme start scanned]
    refine ⟨behind, found, ?_, atLineStart_cons scanned place, found_eq, ?_⟩
    · rw [List.append_assoc, ← rest_eq, (Lexeme.append_of_scan? scanned).1]
    · rw [token_eq, Position.advance_append]

theorem place_of_failsAt {failure : ParseError}
    (fails : (run start lineStart source).FailsAt before failure) :
    failure.cause.isDirective = true →
      ∃ behind, source = before ++ behind ∧
        (run start lineStart source).AtLineStart before lineStart ∧
          directive? behind = some (.error failure.cause) := by
  refine failsAt_induction ?here ?later fails
  case here =>
    intro start lineStart source cause scanned is_directive
    obtain ⟨rfl, found_eq⟩ := Lexeme.directive?_of_scan?_error scanned is_directive
    exact ⟨source, rfl, atLineStart_nil _, found_eq⟩
  case later =>
    intro start lineStart source lexeme before failure scanned ih is_directive
    obtain ⟨behind, rest_eq, place, found_eq⟩ := ih is_directive
    rw [run_of_lexeme start scanned]
    refine ⟨behind, ?_, atLineStart_cons scanned place, found_eq⟩
    rw [List.append_assoc, ← rest_eq, (Lexeme.append_of_scan? scanned).1]

/-- Whatever stands at the beginning of a line that is lexed at all is found there. -/
theorem found_at_place {found : Except ParseCause Lexeme}
    (lexed : before <+: (run start lineStart (before ++ behind)).text)
    (place : (run start lineStart (before ++ behind)).AtLineStart before lineStart)
    (found_eq : directive? behind = some found) :
    match found with
    | .ok lexeme =>
        (run start lineStart (before ++ behind)).Emits before
          (lexeme.tokenFrom (start.advance before))
    | .error cause =>
        (run start lineStart (before ++ behind)).FailsAt before
          { cause, position := start.advance before } := by
  generalize source_eq : before ++ behind = source at *
  induction start, lineStart, source using run_induction generalizing before with
  | finished start lineStart source scanned =>
      obtain rfl := Lexeme.eq_nil_of_scan? scanned
      rw [(List.append_eq_nil_iff.mp source_eq).2] at found_eq
      contradiction
  | failed start lineStart source cause scanned =>
      rw [run_of_failed start scanned] at *
      obtain rfl : before = [] := List.prefix_nil.mp lexed
      obtain rfl := eq_true_of_atLineStart_nil place
      obtain rfl : behind = source := source_eq
      cases scanned.symm.trans (Lexeme.scan?_of_scans (.directive found_eq))
      exact ⟨rfl, rfl⟩
  | token start lineStart source lexeme scanned ih =>
      rw [run_of_lexeme start scanned] at *
      by_cases before_eq : before = []
      · subst before_eq
        obtain rfl := eq_true_of_atLineStart_nil place
        obtain rfl : behind = source := source_eq
        cases scanned.symm.trans (Lexeme.scan?_of_scans (.directive found_eq))
        exact emits_cons.mpr (.inl ⟨rfl, rfl⟩)
      · subst source_eq
        obtain ⟨later, rfl, place_later⟩ := atLineStart_behind scanned before_eq found_eq place
        have lexed_later : later <+: (run (start.advance lexeme.text) lexeme.freshLine
            lexeme.rest).text := by
          rw [text_cons, Lexeme.text_tokenFrom] at lexed
          exact (List.prefix_append_right_inj _).mp lexed
        have rest_eq : later ++ behind = lexeme.rest := by
          have append_eq := (Lexeme.append_of_scan? scanned).1
          rw [List.append_assoc] at append_eq
          exact (List.append_cancel_left append_eq).symm
        have found_later := ih rest_eq lexed_later place_later
        rw [Position.advance_append]
        cases found with
        | ok other =>
            exact emits_cons.mpr (.inr ⟨later, by rw [Lexeme.text_tokenFrom], found_later⟩)
        | error cause =>
            exact failsAt_cons.mpr ⟨later, by rw [Lexeme.text_tokenFrom], found_later⟩

/-- The place between `before` and `behind` is reached before the first error of the text, over
spaces, tabs and carriage returns only from the beginning of a line that lies outside quotes and
comments. -/
structure LineStart (file : SourceFile) (text : String) (before behind : List Char) : Prop where
  split : text.toList = before ++ behind
  lexed : before <+: (ofText file text).text
  atLineStart : (ofText file text).AtLineStart before

variable {file : SourceFile} {text : String}

theorem lineStart_of_emits {token : Token} (emits : (ofText file text).Emits before token)
    (is_directive : token.kind.isDirective = true) :
    ∃ behind lexeme, LineStart file text before behind ∧ Lexeme.Directive behind (.ok lexeme) ∧
      token = lexeme.tokenFrom ((Position.startOf file).advance before) := by
  obtain ⟨behind, lexeme, split, place, found_eq, token_eq⟩ := place_of_emits emits is_directive
  exact ⟨behind, lexeme, ⟨split, prefix_of_emits emits, place⟩,
    Lexeme.directive_of_directive? found_eq, token_eq⟩

theorem emits_of_lineStart {lexeme : Lexeme} (place : LineStart file text before behind)
    (directive : Lexeme.Directive behind (.ok lexeme)) :
    (ofText file text).Emits before
      (lexeme.tokenFrom ((Position.startOf file).advance before)) := by
  obtain ⟨split, lexed, at_start⟩ := place
  rw [ofText, split] at *
  exact found_at_place lexed at_start (Lexeme.directive?_of_directive directive)

theorem lineStart_of_failsAt {failure : ParseError}
    (fails : (ofText file text).FailsAt before failure)
    (is_directive : failure.cause.isDirective = true) :
    ∃ behind, LineStart file text before behind ∧
      Lexeme.Directive behind (.error failure.cause) := by
  obtain ⟨behind, split, place, found_eq⟩ := place_of_failsAt fails is_directive
  exact ⟨behind, ⟨split, fails.1 ▸ List.prefix_refl _, place⟩,
    Lexeme.directive_of_directive? found_eq⟩

theorem failsAt_of_lineStart {cause : ParseCause} (place : LineStart file text before behind)
    (directive : Lexeme.Directive behind (.error cause)) :
    (ofText file text).FailsAt before
      { cause, position := (Position.startOf file).advance before } := by
  obtain ⟨split, lexed, at_start⟩ := place
  rw [ofText, split] at *
  exact found_at_place lexed at_start (Lexeme.directive?_of_directive directive)

theorem separator_iff {n : Nat} {written : List Char} :
    (∃ token, (ofText file text).Emits before token ∧ token.kind = .separator n ∧
        token.text = String.ofList written) ↔
      ∃ behind digits, LineStart file text before behind ∧ SeparatorLine behind written digits ∧
        RepeatCount digits n := by
  constructor
  · rintro ⟨token, emits, kind_eq, text_eq⟩
    obtain ⟨behind, lexeme, place, directive, rfl⟩ :=
      lineStart_of_emits emits (by rw [kind_eq]; rfl)
    cases directive with
    | separator line count =>
        cases kind_eq
        obtain rfl := String.ofList_inj.mp text_eq
        exact ⟨behind, _, place, line, count⟩
    | command => contradiction
  · rintro ⟨behind, digits, place, line, count⟩
    obtain ⟨rest, append_eq⟩ : ∃ rest, written ++ rest = behind := by
      cases line with
      | uncounted => exact ⟨_, rfl⟩
      | counted => exact ⟨_, by simp only [List.cons_append, List.append_assoc]; rfl⟩
    exact ⟨_, emits_of_lineStart place (.separator line count append_eq), rfl, rfl⟩

theorem invalidRepeatCount_iff {digits : List Char} :
    (ofText file text).FailsAt before
        { cause := .invalidRepeatCount (String.ofList digits)
          position := (Position.startOf file).advance before } ↔
      ∃ behind written, LineStart file text before behind ∧ SeparatorLine behind written digits ∧
        InvalidCount digits := by
  constructor
  · intro fails
    obtain ⟨behind, place, directive⟩ := lineStart_of_failsAt fails rfl
    generalize cause_eq : (Except.error (ParseCause.invalidRepeatCount _)) = found at directive
    cases directive with
    | invalidCount line invalid =>
        have digits_eq := ParseCause.invalidRepeatCount.inj (Except.error.inj cause_eq)
        obtain rfl := String.ofList_inj.mp digits_eq
        exact ⟨behind, _, place, line, invalid⟩
    | _ => simp at cause_eq
  · rintro ⟨behind, written, place, line, invalid⟩
    exact failsAt_of_lineStart place (.invalidCount line invalid)

theorem command_iff {kind : CommandKind} {line : List Char} :
    (∃ token command, (ofText file text).Emits before token ∧ token.kind = .command command ∧
        command.kind = kind ∧ token.text = String.ofList line) ↔
      ∃ behind, LineStart file text before behind ∧ CommandLine behind line kind := by
  constructor
  · rintro ⟨token, command, emits, kind_eq, command_eq, text_eq⟩
    obtain ⟨behind, lexeme, place, directive, rfl⟩ :=
      lineStart_of_emits emits (by rw [kind_eq]; rfl)
    cases directive with
    | separator => contradiction
    | @command behind_colon name rest other colon known =>
        cases kind_eq
        obtain rfl : other = kind := command_eq
        obtain rfl := String.ofList_inj.mp text_eq
        obtain rfl := colon.source_eq
        exact ⟨_, place, ⟨_, _, _, colon, known⟩, _, Lexeme.run_commandLine known⟩
  · rintro ⟨behind, place, ⟨behind_colon, name, rest, colon, known⟩, after, line_run⟩
    refine ⟨_, _, emits_of_lineStart place (.command colon known), rfl, rfl, ?_⟩
    obtain rfl := colon.source_eq
    rw [(line_run.unique (Lexeme.run_commandLine known)).1]
    rfl

theorem unknownCommand_iff {name : List Char} :
    (ofText file text).FailsAt before
        { cause := .unknownCommand (String.ofList name)
          position := (Position.startOf file).advance before } ↔
      ∃ behind, LineStart file text before behind ∧ UnknownCommandLine behind name := by
  constructor
  · intro fails
    obtain ⟨behind, place, directive⟩ := lineStart_of_failsAt fails rfl
    generalize cause_eq : (Except.error (ParseCause.unknownCommand _)) = found at directive
    cases directive with
    | unknownCommand colon unknown =>
        have name_eq := ParseCause.unknownCommand.inj (Except.error.inj cause_eq)
        obtain rfl := String.ofList_inj.mp name_eq
        exact ⟨behind, place, _, colon, unknown⟩
    | _ => simp at cause_eq
  · rintro ⟨behind, place, rest, colon, unknown⟩
    exact failsAt_of_lineStart place (.unknownCommand colon unknown)

/-- Before the first error, separators and commands are the tokens at places where a line may begin
and reads as one; at such a place an invalid count or an unknown name is the error. -/
theorem directives_exactly_at_lineStarts (file : SourceFile) (text : String)
    (before : List Char) :
    let lexing := ofText file text
    let here := (Position.startOf file).advance before
    (∀ token, lexing.Emits before token →
        token.start = here ∧ token.stop = here.advance token.text.toList) ∧
      (∀ n written,
        (∃ token, lexing.Emits before token ∧ token.kind = .separator n ∧
            token.text = String.ofList written) ↔
          ∃ behind digits, LineStart file text before behind ∧
            SeparatorLine behind written digits ∧ RepeatCount digits n) ∧
      (∀ digits,
        lexing.FailsAt before
            { cause := .invalidRepeatCount (String.ofList digits), position := here } ↔
          ∃ behind written, LineStart file text before behind ∧
            SeparatorLine behind written digits ∧ InvalidCount digits) ∧
      (∀ kind line,
        (∃ token command, lexing.Emits before token ∧ token.kind = .command command ∧
            command.kind = kind ∧ token.text = String.ofList line) ↔
          ∃ behind, LineStart file text before behind ∧ CommandLine behind line kind) ∧
      (∀ name,
        lexing.FailsAt before
            { cause := .unknownCommand (String.ofList name), position := here } ↔
          ∃ behind, LineStart file text before behind ∧ UnknownCommandLine behind name) ∧
      ∀ failure, lexing.FailsAt before failure → failure.position = here := by
  refine ⟨fun token emits => ?_, fun _ _ => separator_iff, fun _ => invalidRepeatCount_iff,
    fun _ _ => command_iff, fun _ => unknownCommand_iff, fun _ => position_of_failsAt⟩
  obtain ⟨start_eq, stop_eq⟩ := coordinates_of_emits emits
  exact ⟨start_eq, start_eq ▸ stop_eq⟩

end Lexing
end SqlScript
