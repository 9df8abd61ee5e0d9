import SqlScript.Proofs.Build.Nesting

/-!
# Places of errors about variables

An error about a variable is placed at the reference in question, in the file that contains the
reference, whether the reference stands in the text of a batch or in the argument of a command.  The
value of an assignment is the exception: the place is counted from the beginning of the assignment's
arguments, as if its variable's name did not stand there, and so it lies before the reference.
-/

namespace SqlScript

/-- The text of a malformed reference begins as a reference does. -/
theorem Lexeme.written_of_scan? {lineStart : Bool} {source written : List Char}
    {cause : ParseCause} (scanned : scan? lineStart source = some (.error cause))
    (written_eq : cause.written? = some written) : ∃ behind, source = written ++ behind := by
  rcases cause_of_scan? scanned with is_directive | unclosed | ⟨rfl, behind, source_eq⟩
  · cases cause <;> contradiction
  · simp only [List.mem_cons, List.not_mem_nil, or_false] at unclosed
    rcases unclosed with rfl | rfl | rfl <;> cases written_eq
  · cases written_eq
    exact ⟨behind, source_eq⟩

/-- The text `written` stands at a place of a file that the script is read from. -/
def Position.Points (position : Position) (resolver : Resolver) (text : String)
    (written : List Char) : Prop :=
  ∃ file content before behind, Supplies resolver text file content ∧
    content.toList = before ++ (written ++ behind) ∧ position.Marks file before ∧
      position.offset = String.utf8Len before

section

variable {resolver : Resolver} {text content : String} {file : SourceFile} {written : List Char}
  {token : Token} {failure : ParseError}

theorem points_advance {before behind : List Char} (supplies : Supplies resolver text file content)
    (content_eq : content.toList = before ++ (written ++ behind)) :
    ((Position.startOf file).advance before).Points resolver text written := by
  refine ⟨file, content, before, behind, supplies, content_eq,
    Position.marks_advance file before, ?_⟩
  rw [Position.offset_advance]
  exact Nat.zero_add _

theorem points_of_tokenize (supplies : Supplies resolver text file content)
    (failed : tokenize file content = .error failure)
    (about : failure.cause.written? = some written) :
    failure.position.Points resolver text written := by
  obtain ⟨before, fails⟩ := Lexing.failsAt_of_tokenize failed
  obtain ⟨fresh, rest, content_eq, scanned⟩ := Lexing.scan?_of_failsAt fails
  obtain ⟨behind, rfl⟩ := Lexeme.written_of_scan? scanned about
  rw [Lexing.position_of_failsAt fails]
  exact points_advance supplies content_eq

/-- A stretch of a token's text stands at the place that is counted from the token's start. -/
theorem Token.Occurs.points {front behind : List Char} (occurs : token.Occurs resolver text file)
    (text_eq : token.text.toList = front ++ (written ++ behind)) :
    (token.start.advance front).Points resolver text written := by
  obtain ⟨content, whole, supplies, whole_eq, member⟩ := occurs
  obtain ⟨before, after, emits, content_eq⟩ := Lexing.emits_of_tokenize whole_eq member
  have place_eq : content.toList = (before ++ front) ++ (written ++ (behind ++ after)) := by
    rw [content_eq, text_eq]
    simp
  rw [(Lexing.coordinates_of_emits emits).1, ← Position.advance_append]
  exact points_advance supplies place_eq

theorem Token.Occurs.lexeme (occurs : token.Occurs resolver text file) :
    ∃ fresh behind lexeme, Lexeme.scan? fresh behind = some (.ok lexeme) ∧
      token = lexeme.tokenFrom token.start := by
  obtain ⟨content, whole, supplies, whole_eq, member⟩ := occurs
  obtain ⟨before, after, emits, -⟩ := Lexing.emits_of_tokenize whole_eq member
  obtain ⟨fresh, behind, lexeme, -, scanned, token_eq⟩ := Lexing.scan?_of_emits emits
  refine ⟨fresh, behind, lexeme, scanned, ?_⟩
  rw [(Lexing.coordinates_of_emits emits).1]
  exact token_eq

theorem Token.Occurs.points_of_reference {name : String} (occurs : token.Occurs resolver text file)
    (kind_eq : token.kind = .reference name) :
    token.start.Points resolver text ('$' :: '(' :: (name.toList ++ [')'])) := by
  obtain ⟨fresh, behind, lexeme, scanned, token_eq⟩ := occurs.lexeme
  rw [token_eq] at kind_eq
  cases form_eq : lexeme.form with
  | reference written =>
      have name_eq : name.toList = written := by
        simp only [Lexeme.tokenFrom, form_eq, Form.kindFrom, TokenKind.reference.injEq] at kind_eq
        rw [← kind_eq, String.toList_ofList]
      have text_eq : token.text.toList = [] ++ ('$' :: '(' :: (name.toList ++ [')']) ++ []) := by
        rw [token_eq, Lexeme.text_tokenFrom, Lexeme.text_of_scan? scanned form_eq, name_eq]
        simp
      exact occurs.points text_eq
  | _ => simp [Lexeme.tokenFrom, form_eq, Form.kindFrom] at kind_eq

/-- What stands in the arguments of a command stands in its file. -/
theorem Token.Occurs.points_of_arguments {command : Command} {front behind : List Char}
    (occurs : token.Occurs resolver text file) (kind_eq : token.kind = .command command)
    (arguments_eq : command.arguments.toList = front ++ (written ++ behind)) :
    (command.argumentsStart.advance front).Points resolver text written := by
  obtain ⟨fresh, source, lexeme, scanned, token_eq⟩ := occurs.lexeme
  rw [token_eq] at kind_eq
  cases form_eq : lexeme.form with
  | command kind lead arguments =>
      simp only [Lexeme.tokenFrom, form_eq, Form.kindFrom, TokenKind.command.injEq] at kind_eq
      subst kind_eq
      obtain ⟨blanks, lexeme_eq⟩ := Lexeme.arguments_of_scan? scanned form_eq
      rw [String.toList_ofList] at arguments_eq
      dsimp only
      rw [← Position.advance_append]
      have text_eq : token.text.toList = (lead ++ front) ++ (written ++ (behind ++ blanks)) := by
        rw [token_eq, Lexeme.text_tokenFrom, lexeme_eq, arguments_eq]
        simp
      exact occurs.points text_eq
  | _ => simp [Lexeme.tokenFrom, form_eq, Form.kindFrom] at kind_eq

theorem Token.Occurs.points_of_requiredArgument {command : Command} {bindings : Variable.Table}
    {missing : String} (occurs : token.Occurs resolver text file)
    (kind_eq : token.kind = .command command)
    (failed : command.requiredArgument bindings missing = .error failure)
    (about : failure.cause.written? = some written) :
    failure.position.Points resolver text written := by
  rcases Command.requiredArgument_error failed with
    ⟨before, reference, behind, arguments_eq, reference_eq, position_eq⟩ | rfl
  · cases reference_eq.symm.trans about
    rw [position_eq]
    exact occurs.points_of_arguments kind_eq arguments_eq
  · cases about

/-- The error is placed in the arguments of the assignment `token`, but before the reference it is
about. -/
def Token.Misplaces (token : Token) (resolver : Resolver) (text : String) (written : List Char)
    (position : Position) : Prop :=
  ∃ (command : Command) (place : Position),
    token.kind = .command command ∧ command.kind = .setVar ∧ place.Points resolver text written ∧
      position.file = place.file ∧ command.argumentsStart.offset ≤ position.offset ∧
        position.offset < place.offset

theorem Token.Occurs.misplaces_of_assignment {command : Command} {bindings : Variable.Table}
    (occurs : token.Occurs resolver text file) (kind_eq : token.kind = .command command)
    (is_assignment : command.kind = .setVar)
    (failed : command.assignment bindings = .error failure)
    (about : failure.cause.written? = some written) :
    token.Misplaces resolver text written failure.position := by
  rcases Command.assignment_error failed with
    ⟨before, front, reference, behind, arguments_eq, reference_eq, position_eq, shorter⟩ | ⟨_, rfl⟩
  · cases reference_eq.symm.trans about
    refine ⟨command, command.argumentsStart.advance front, kind_eq, is_assignment,
      occurs.points_of_arguments kind_eq arguments_eq, ?_, ?_, ?_⟩
    · simp [position_eq]
    · rw [position_eq]
      exact Position.le_offset_advance _ _
    · rw [position_eq, Position.offset_advance, Position.offset_advance]
      omega
  · cases about

namespace Build

variable {limit : Nat} {moment : Moment} {rest : List Token}

theorem points_of_drawIn {command : Command} (occurs : token.Occurs resolver text file)
    (kind_eq : token.kind = .command command)
    (failed : drawIn resolver limit moment.stack moment.draft.bindings command token.start =
      .error failure)
    (about : failure.cause.written? = some written) :
    failure.position.Points resolver text written := by
  rcases error_of_bind failed with refused | ⟨path, -, failed⟩
  · exact occurs.points_of_requiredArgument kind_eq refused about
  split at failed
  · cases failed
    cases about
  split at failed
  · cases failed
    cases about
  rename_i file found
  split at failed
  · cases failed
    cases about
  rcases error_of_bind failed with malformed | ⟨tokens, -, returned⟩
  · exact points_of_tokenize (.included found) malformed about
  · cases returned

/-- Where the next token is refused because of a reference. -/
theorem place_of_fails
    (occurs : ∀ token rest, moment.tokens = token :: rest → token.Occurs resolver text file)
    (fails : moment.Fails resolver limit failure)
    (about : failure.cause.written? = some written) :
    ∃ token rest, moment.tokens = token :: rest ∧
      (token.kind.commandKind? ≠ some .setVar → failure.position.Points resolver text written) ∧
      (token.kind.commandKind? = some .setVar →
        token.Misplaces resolver text written failure.position) := by
  obtain ⟨token, rest, tokens_eq, reason⟩ := Moment.fails_at_token fails
  have token_occurs := occurs token rest tokens_eq
  refine ⟨token, rest, tokens_eq, ?_⟩
  rcases reason with ⟨inclusion, failed⟩ | ⟨command, inclusion, failed⟩
  · cases refuses_of_accept (TokenKind.inclusion?_eq_none_iff.mp inclusion) failed with
    | undefined kind_eq =>
        cases about
        refine ⟨fun _ => token_occurs.points_of_reference kind_eq, fun is_assignment => ?_⟩
        rw [kind_eq] at is_assignment
        contradiction
    | assignment kind_eq is_assignment refused =>
        refine ⟨fun other => ?_, fun _ => ?_⟩
        · rw [kind_eq] at other
          exact (other (congrArg some is_assignment)).elim
        · exact token_occurs.misplaces_of_assignment kind_eq is_assignment refused about
    | argument kind_eq other refused =>
        refine ⟨fun _ => token_occurs.points_of_requiredArgument kind_eq refused about,
          fun is_assignment => ?_⟩
        rw [kind_eq] at is_assignment
        exact (other (Option.some.inj is_assignment)).elim
    | action => cases about
  · obtain ⟨kind_eq, include_eq⟩ := TokenKind.inclusion?_eq_some_iff.mp inclusion
    refine ⟨fun _ => points_of_drawIn token_occurs kind_eq failed about, fun is_assignment => ?_⟩
    rw [kind_eq, TokenKind.commandKind?, include_eq] at is_assignment
    contradiction

end Build
end

/-- The walk through the script ends with the error at this token. -/
def Build.RefusedAt (resolver : Resolver) (options : BuildOptions) (bindings : Variable.Table)
    (text : String) (failure : ParseError) (token : Token) : Prop :=
  ∃ tokens moment rest, tokenize .script text = .ok tokens ∧
    (Moment.first options bindings tokens).Reaches resolver options.maxIncludeDepth moment ∧
      moment.tokens = token :: rest ∧ moment.Fails resolver options.maxIncludeDepth failure

/-- A build that fails because of a reference fails at the reference, in the text of the file that
contains it.  Only where the walk is refused at an assignment, the error is placed before the
reference. -/
theorem variable_errors_of_build {resolver : Resolver} {options : BuildOptions}
    {bindings : Variable.Table} {text : String} {failure : ParseError} {written : List Char}
    (failed : build resolver options bindings text = .error failure)
    (about : failure.cause.written? = some written) :
    (tokenize .script text = .error failure ∧ failure.position.Points resolver text written) ∨
      ∃ token, Build.RefusedAt resolver options bindings text failure token ∧
        (token.kind.commandKind? ≠ some .setVar →
          failure.position.Points resolver text written) ∧
        (token.kind.commandKind? = some .setVar →
          token.Misplaces resolver text written failure.position) := by
  rcases error_of_bind failed with malformed | ⟨tokens, tokens_eq, failed⟩
  · exact .inl ⟨malformed, points_of_tokenize .script malformed about⟩
  obtain ⟨last, result, reaches, ends, built⟩ :=
    Build.last_of_buildTokens resolver options bindings tokens
  rw [failed] at built
  rcases result with other | ⟨_ | _, draft⟩ <;> cases built
  have sound := Build.Moment.sound_of_reaches tokens_eq reaches
  have occurs (token : Token) (rest : List Token) (next_eq : last.tokens = token :: rest) :
      token.Occurs resolver text last.file := by
    have remains := sound.remains
    rw [next_eq] at remains
    exact remains.occurs
  obtain ⟨token, rest, next_eq, places⟩ := Build.place_of_fails occurs ends about
  exact .inr ⟨token, ⟨tokens, last, rest, tokens_eq, reaches, next_eq, ends⟩, places⟩

/-- The reference stands in quotes in an included file. -/
theorem variable_error_of_included_file :
    let resolver := Resolver.ofFiles [("a", "x\n:out \"$(b)\"")]
    let options : BuildOptions := {}
    let bindings := Variable.Table.ofList []
    let failure : ParseError :=
      { cause := .undefinedVariable "b"
        position := { file := .included "a", line := 2, column := 7, offset := 8 } }
    let written := ['$', '(', 'b', ')']
    build resolver options bindings ":r a" = .error failure ∧
      failure.cause.written? = some written ∧
      ((tokenize .script ":r a" = .error failure ∧
          failure.position.Points resolver ":r a" written) ∨
        ∃ token, Build.RefusedAt resolver options bindings ":r a" failure token ∧
          (token.kind.commandKind? ≠ some .setVar →
            failure.position.Points resolver ":r a" written) ∧
          (token.kind.commandKind? = some .setVar →
            token.Misplaces resolver ":r a" written failure.position)) := by
  intro resolver options bindings failure written
  have failed : build resolver options bindings ":r a" = .error failure := by
    decide +kernel +zetaReduce
  have about : failure.cause.written? = some written := rfl
  exact ⟨failed, about, variable_errors_of_build failed about⟩

/-- The error is placed at the name that is assigned, two characters before the reference. -/
theorem misplaced_error_of_assignment :
    let resolver := Resolver.ofFiles []
    let failure : ParseError :=
      { cause := .undefinedVariable "b"
        position := { file := .script, line := 1, column := 9, offset := 8 } }
    let written := ['$', '(', 'b', ')']
    build resolver {} (Variable.Table.ofList []) ":setvar a $(b)" = .error failure ∧
      failure.cause.written? = some written ∧
        ¬failure.position.Points resolver ":setvar a $(b)" written := by
  intro resolver failure written
  refine ⟨by decide +kernel +zetaReduce, rfl, ?_⟩
  rintro ⟨file, content, before, behind, supplies, content_eq, marks, offset_eq⟩
  have file_eq : SourceFile.script = file := by
    have same_file := congrArg Position.file marks.position_eq
    rwa [Position.advance_file] at same_file
  subst file_eq
  cases supplies
  have there := Lexing.dropBytes_utf8Len before (written ++ behind)
  rw [← offset_eq, ← content_eq] at there
  have here : Lexing.dropBytes 8 ":setvar a $(b)".toList = "a $(b)".toList := by decide +kernel
  have letter_eq := congrArg List.head? (here.symm.trans there)
  simp [written] at letter_eq

end SqlScript
