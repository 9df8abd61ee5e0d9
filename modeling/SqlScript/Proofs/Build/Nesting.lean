import SqlScript.Proofs.Build.Moments
import SqlScript.Proofs.Build.References

/-!
# Nesting of includes

At each moment of a walk the files that are being expanded are different files, and there are no
more of them than the limit allows.  An include directive is refused because of its level, because
its file cannot be had, or because its file is being expanded already, in this order; otherwise the
file is expanded, and behind it the walk goes on with the same files as before the directive.
-/

namespace SqlScript

/-- Whether only an include directive is refused for this cause. -/
def ParseCause.isInclude : ParseCause → Bool
  | includeNotFound _ _ | includeCycle _ | includeDepthExceeded _ => true
  | _ => false

theorem Lexeme.not_isInclude_of_scan? {lineStart : Bool} {source : List Char} {cause : ParseCause}
    (scanned : scan? lineStart source = some (.error cause)) : cause.isInclude = false := by
  rcases cause_of_scan? scanned with is_directive | unclosed | ⟨rfl, -⟩
  · cases cause <;> first | rfl | contradiction
  · simp only [List.mem_cons, List.not_mem_nil, or_false] at unclosed
    rcases unclosed with rfl | rfl | rfl <;> rfl
  · rfl

theorem not_isInclude_of_tokenize {file : SourceFile} {content : String} {failure : ParseError}
    (failed : tokenize file content = .error failure) : failure.cause.isInclude = false := by
  obtain ⟨before, fails⟩ := Lexing.failsAt_of_tokenize failed
  obtain ⟨fresh, behind, -, scanned⟩ := Lexing.scan?_of_failsAt fails
  exact Lexeme.not_isInclude_of_scan? scanned

theorem ParseCause.not_isInclude_of_written? {cause : ParseCause} {written : List Char}
    (written_eq : cause.written? = some written) : cause.isInclude = false := by
  cases cause <;> first | rfl | cases written_eq

namespace Build

section

variable {resolver : Resolver} {limit : Nat} {stack : List String} {bindings : Variable.Table}
  {command : Command} {position : Position} {path : String} {file : IncludedFile}
  {failure : ParseError} {token : Token} {draft : Draft} {expand : Expansion}

theorem not_isInclude_of_requiredArgument {missing : String}
    (failed : command.requiredArgument bindings missing = .error failure) :
    failure.cause.isInclude = false := by
  rcases Command.requiredArgument_error failed with ⟨_, written, _, -, written_eq, -⟩ | rfl
  · exact ParseCause.not_isInclude_of_written? written_eq
  · rfl

theorem not_isInclude_of_refuses (refuses : Refuses bindings token failure) :
    failure.cause.isInclude = false := by
  cases refuses with
  | undefined | action => rfl
  | assignment _ _ refused =>
      rcases Command.assignment_error refused with ⟨_, _, written, _, -, written_eq, -⟩ | ⟨_, rfl⟩
      · exact ParseCause.not_isInclude_of_written? written_eq
      · rfl
  | argument _ _ refused => exact not_isInclude_of_requiredArgument refused

theorem drawIn_of_tooDeep (position : Position)
    (path_eq : command.requiredArgument bindings "missing file path" = .ok path)
    (too_deep : limit ≤ stack.length) :
    drawIn resolver limit stack bindings command position =
      .error { cause := .includeDepthExceeded limit, position } := by
  rw [drawIn, path_eq]
  exact if_pos too_deep

theorem drawIn_of_notFound {missing : IncludeError}
    (path_eq : command.requiredArgument bindings "missing file path" = .ok path)
    (level : stack.length < limit) (not_found : resolver path position.file = .error missing) :
    drawIn resolver limit stack bindings command position =
      .error { cause := .includeNotFound path missing.message, position } := by
  rw [drawIn, path_eq]
  simp only [bind, Except.bind, if_neg (Nat.not_le_of_lt level), not_found]
  rfl

theorem drawIn_of_cycle
    (path_eq : command.requiredArgument bindings "missing file path" = .ok path)
    (level : stack.length < limit) (found : resolver path position.file = .ok file)
    (again : file.path ∈ stack) :
    drawIn resolver limit stack bindings command position =
      .error { cause := .includeCycle file.path, position } := by
  rw [drawIn, path_eq]
  simp only [bind, Except.bind, if_neg (Nat.not_le_of_lt level), found]
  exact if_pos (List.contains_iff_mem.mpr again)

theorem drawIn_of_fresh
    (path_eq : command.requiredArgument bindings "missing file path" = .ok path)
    (level : stack.length < limit) (found : resolver path position.file = .ok file)
    (fresh : file.path ∉ stack) :
    drawIn resolver limit stack bindings command position =
      (tokenize (.included file.path) file.text).map (file.path, ·) := by
  rw [drawIn, path_eq]
  simp only [bind, Except.bind, if_neg (Nat.not_le_of_lt level), found]
  rw [if_neg (fun member => fresh (List.contains_iff_mem.mp member))]
  cases tokenize (.included file.path) file.text <;> rfl

end

/-- The tokens are the last ones of a file that the script is read from. -/
def Remains (resolver : Resolver) (text : String) (file : SourceFile) (tokens : List Token) :
    Prop :=
  ∃ content whole, Supplies resolver text file content ∧ tokenize file content = .ok whole ∧
    tokens <:+ whole

theorem Remains.tail {resolver : Resolver} {text : String} {file : SourceFile} {token : Token}
    {tokens : List Token} (remains : Remains resolver text file (token :: tokens)) :
    Remains resolver text file tokens := by
  obtain ⟨content, whole, supplies, whole_eq, ends⟩ := remains
  exact ⟨content, whole, supplies, whole_eq, (List.suffix_cons token tokens).trans ends⟩

namespace Moment

/-- The files that are being expanded differ, are not too many, and the tokens are theirs. -/
inductive Sound (resolver : Resolver) (limit : Nat) (text : String) :
    List (String × List Token) → List Token → Prop
  | script {tokens : List Token} :
      Remains resolver text .script tokens → Sound resolver limit text [] tokens
  | included {nested : List (String × List Token)} {path : String} {outer tokens : List Token} :
      Sound resolver limit text nested outer → path ∉ nested.map Prod.fst →
        nested.length < limit → Remains resolver text (.included path) tokens →
          Sound resolver limit text ((path, outer) :: nested) tokens

variable {resolver : Resolver} {limit : Nat} {text : String} {moment next : Moment}
  {nested : List (String × List Token)} {tokens : List Token}

theorem Sound.nodup (sound : Sound resolver limit text nested tokens) :
    (nested.map Prod.fst).Nodup := by
  induction sound with
  | script => exact List.nodup_nil
  | included _ fresh _ _ ih => exact List.nodup_cons.mpr ⟨fresh, ih⟩

theorem Sound.length_le (sound : Sound resolver limit text nested tokens) :
    nested.length ≤ limit := by
  cases sound with
  | script => exact Nat.zero_le limit
  | included _ _ level _ => exact level

theorem Sound.supplied (sound : Sound resolver limit text nested tokens) :
    ∀ path ∈ nested.map Prod.fst, ∃ content, Supplies resolver text (.included path) content := by
  induction sound with
  | script => simp
  | included _ _ _ remains ih =>
      obtain ⟨content, -, supplies, -⟩ := remains
      exact List.forall_mem_cons.mpr ⟨⟨content, supplies⟩, ih⟩

theorem Sound.remains (sound : Sound resolver limit text moment.nested moment.tokens) :
    Remains resolver text moment.file moment.tokens := by
  obtain ⟨nested, tokens, draft⟩ := moment
  cases sound with
  | script remains => exact remains
  | included _ _ _ remains => exact remains

theorem Sound.tail {token : Token} (sound : Sound resolver limit text nested (token :: tokens)) :
    Sound resolver limit text nested tokens := by
  cases sound with
  | script remains => exact .script remains.tail
  | included outside fresh level remains => exact .included outside fresh level remains.tail

theorem Sound.move (moves : Moves resolver limit moment next)
    (sound : Sound resolver limit text moment.nested moment.tokens) :
    Sound resolver limit text next.nested next.tokens := by
  cases moves with
  | takes => exact sound.tail
  | enters _ drawn =>
      obtain ⟨level, fresh, asked, file, file_eq, rfl, inside_eq⟩ := file_of_drawIn drawn
      rw [List.length_map] at level
      exact .included sound.tail fresh level
        ⟨file.text, _, .included file_eq, inside_eq, List.suffix_refl _⟩
  | leaves =>
      cases sound with
      | included outside _ _ _ => exact outside

theorem sound_of_reaches {options : BuildOptions} {bindings : Variable.Table}
    (tokens_eq : tokenize .script text = .ok tokens)
    (reaches : (first options bindings tokens).Reaches resolver limit moment) :
    Sound resolver limit text moment.nested moment.tokens := by
  have start : Sound resolver limit text [] tokens :=
    .script ⟨text, tokens, .script, tokens_eq, List.suffix_refl tokens⟩
  induction reaches with
  | refl => exact start
  | tail _ step ih => exact ih.move (moves_of_advance step)

/-- The next token is an include directive with the valid argument `path`. -/
structure Asks (moment : Moment) (directive : Token) (rest : List Token) (path : String) :
    Prop where
  tokens_eq : moment.tokens = directive :: rest
  argument_eq : ∃ command, directive.kind.inclusion? = some command ∧
    command.requiredArgument moment.draft.bindings "missing file path" = .ok path

/-- The walk ends at this moment with an error. -/
def Fails (resolver : Resolver) (limit : Nat) (moment : Moment) (failure : ParseError) : Prop :=
  moment.advance resolver limit = .done (.error failure)

/-- What an include directive for `path` does. -/
structure CarriesOut (resolver : Resolver) (limit : Nat) (moment : Moment) (directive : Token)
    (rest : List Token) (path : String) : Prop where
  tooDeep_iff (bound : Nat) (position : Position) :
    moment.Fails resolver limit { cause := .includeDepthExceeded bound, position } ↔
      moment.stack.length = limit ∧ bound = limit ∧ position = directive.start
  notFound_iff (level : moment.stack.length ≠ limit) (asked reason : String) (position : Position) :
    moment.Fails resolver limit { cause := .includeNotFound asked reason, position } ↔
      ∃ missing, resolver path moment.file = .error missing ∧ asked = path ∧
        reason = missing.message ∧ position = directive.start
  cycle_iff (level : moment.stack.length ≠ limit) {file : IncludedFile}
    (found : resolver path moment.file = .ok file) (again : String) (position : Position) :
    moment.Fails resolver limit { cause := .includeCycle again, position } ↔
      file.path ∈ moment.stack ∧ again = file.path ∧ position = directive.start
  enters (level : moment.stack.length ≠ limit) {file : IncludedFile}
    (found : resolver path moment.file = .ok file) (fresh : file.path ∉ moment.stack) :
    moment.advance resolver limit =
      match tokenize (.included file.path) file.text with
      | .error failure => .done (.error failure)
      | .ok tokens => .next { moment with nested := (file.path, rest) :: moment.nested, tokens }
  returns {inner later : Moment} (enters : moment.advance resolver limit = .next inner)
    (reaches : inner.Reaches resolver limit later) :
    inner.nested <:+ later.nested ∨
      ∃ draft, Reaches resolver limit { moment with tokens := rest, draft } later

variable {directive : Token} {rest : List Token} {path : String} {failure : ParseError}

theorem build_of_fails {options : BuildOptions} {bindings : Variable.Table}
    (tokens_eq : tokenize .script text = .ok tokens)
    (passes : (first options bindings tokens).Reaches resolver options.maxIncludeDepth moment)
    (fails : moment.Fails resolver options.maxIncludeDepth failure) :
    build resolver options bindings text = .error failure := by
  obtain ⟨last, result, reaches, ends, built⟩ :=
    last_of_buildTokens resolver options bindings tokens
  obtain rfl := eq_of_reaches fails (reaches_last reaches ends passes)
  cases fails.symm.trans ends
  rw [build, tokens_eq]
  exact built

theorem Asks.advance_eq (asks : moment.Asks directive rest path) (resolver : Resolver)
    (limit : Nat) :
    ∃ command, command.requiredArgument moment.draft.bindings "missing file path" = .ok path ∧
      moment.advance resolver limit =
        match drawIn resolver limit moment.stack moment.draft.bindings command directive.start with
        | .error failure => .done (.error failure)
        | .ok (path, tokens) =>
            .next { moment with nested := (path, rest) :: moment.nested, tokens } := by
  obtain ⟨command, inclusion, path_eq⟩ := asks.argument_eq
  refine ⟨command, path_eq, ?_⟩
  cases drawn : drawIn resolver limit moment.stack moment.draft.bindings command
      directive.start with
  | error failure => simp [advance, asks.tokens_eq, inclusion, drawn]
  | ok file => simp [advance, asks.tokens_eq, inclusion, drawn]

/-- Only at an include directive with a valid argument is a walk refused as one. -/
theorem asks_of_fails (fails : moment.Fails resolver limit failure)
    (is_include : failure.cause.isInclude = true) :
    ∃ directive rest path, moment.Asks directive rest path := by
  obtain ⟨token, rest, tokens_eq, ⟨inclusion, failed⟩ | ⟨command, inclusion, failed⟩⟩ :=
    fails_at_token fails
  · have refuses := refuses_of_accept (TokenKind.inclusion?_eq_none_iff.mp inclusion) failed
    rw [not_isInclude_of_refuses refuses] at is_include
    contradiction
  · rcases error_of_bind failed with refused | ⟨path, path_eq, -⟩
    · rw [not_isInclude_of_requiredArgument refused] at is_include
      contradiction
    · exact ⟨token, rest, path, tokens_eq, command, inclusion, path_eq⟩

/-- A file that was entered is left to where its directive stands. -/
theorem returns_of_reaches {later : Moment}
    (entered : next.nested = (path, rest) :: moment.nested)
    (reaches : next.Reaches resolver limit later) :
    next.nested <:+ later.nested ∨
      ∃ draft, Reaches resolver limit { moment with tokens := rest, draft } later := by
  induction reaches with
  | refl => exact .inl (List.suffix_refl _)
  | tail _ step ih =>
      rcases ih with within | ⟨draft, behind⟩
      · cases moves_of_advance step with
        | takes => exact .inl within
        | enters => exact .inl (within.trans (List.suffix_cons _ _))
        | leaves =>
            rcases List.suffix_cons_iff.mp within with same | deeper
            · -- The innermost file is the one that was entered.
              cases entered.symm.trans same
              exact .inr ⟨_, .refl⟩
            · exact .inl deeper
      · exact .inr ⟨draft, behind.tail step⟩

/-- What a moment at an include directive for `path` leads to. -/
inductive Response (resolver : Resolver) (limit : Nat) (moment : Moment) (directive : Token)
    (rest : List Token) (path : String) : Advance → Prop
  | tooDeep : moment.stack.length = limit →
      Response resolver limit moment directive rest path
        (.done (.error { cause := .includeDepthExceeded limit, position := directive.start }))
  | notFound {missing : IncludeError} : moment.stack.length < limit →
      resolver path moment.file = .error missing →
        Response resolver limit moment directive rest path
          (.done (.error
            { cause := .includeNotFound path missing.message, position := directive.start }))
  | cycle {file : IncludedFile} : moment.stack.length < limit →
      resolver path moment.file = .ok file → file.path ∈ moment.stack →
        Response resolver limit moment directive rest path
          (.done (.error { cause := .includeCycle file.path, position := directive.start }))
  | malformed {file : IncludedFile} {failure : ParseError} : moment.stack.length < limit →
      resolver path moment.file = .ok file → file.path ∉ moment.stack →
        tokenize (.included file.path) file.text = .error failure →
          Response resolver limit moment directive rest path (.done (.error failure))
  | expanded {file : IncludedFile} {tokens : List Token} : moment.stack.length < limit →
      resolver path moment.file = .ok file → file.path ∉ moment.stack →
        tokenize (.included file.path) file.text = .ok tokens →
          Response resolver limit moment directive rest path
            (.next { moment with nested := (file.path, rest) :: moment.nested, tokens })

theorem response_of_asks (asks : moment.Asks directive rest path)
    (level_le : moment.stack.length ≤ limit) (file_eq : directive.start.file = moment.file) :
    Response resolver limit moment directive rest path (moment.advance resolver limit) := by
  obtain ⟨command, path_eq, advance_eq⟩ := asks.advance_eq resolver limit
  rw [advance_eq]
  rcases Nat.eq_or_lt_of_le level_le with too_deep | level
  · rw [drawIn_of_tooDeep directive.start path_eq (Nat.le_of_eq too_deep.symm)]
    exact .tooDeep too_deep
  cases found : resolver path directive.start.file with
  | error missing =>
      rw [drawIn_of_notFound path_eq level found]
      exact .notFound level (file_eq ▸ found)
  | ok file =>
      by_cases again : file.path ∈ moment.stack
      · rw [drawIn_of_cycle path_eq level found again]
        exact .cycle level (file_eq ▸ found) again
      · rw [drawIn_of_fresh path_eq level found again]
        cases tokens_eq : tokenize (.included file.path) file.text with
        | error failure => exact .malformed level (file_eq ▸ found) again tokens_eq
        | ok tokens => exact .expanded level (file_eq ▸ found) again tokens_eq

section

variable {result : Advance}

theorem Response.tooDeep_iff
    (response : Response resolver limit moment directive rest path result) (bound : Nat)
    (position : Position) :
    result = .done (.error { cause := .includeDepthExceeded bound, position }) ↔
      moment.stack.length = limit ∧ bound = limit ∧ position = directive.start := by
  constructor
  · rintro rfl
    cases response with
    | tooDeep too_deep => exact ⟨too_deep, rfl, rfl⟩
    | malformed _ _ _ failed => cases not_isInclude_of_tokenize failed
  · rintro ⟨too_deep, rfl, rfl⟩
    cases response with
    | tooDeep => rfl
    | notFound level | cycle level | malformed level | expanded level => omega

theorem Response.notFound_iff
    (response : Response resolver limit moment directive rest path result)
    (level : moment.stack.length ≠ limit) (asked reason : String) (position : Position) :
    result = .done (.error { cause := .includeNotFound asked reason, position }) ↔
      ∃ missing, resolver path moment.file = .error missing ∧ asked = path ∧
        reason = missing.message ∧ position = directive.start := by
  constructor
  · rintro rfl
    cases response with
    | notFound _ not_found => exact ⟨_, not_found, rfl, rfl, rfl⟩
    | malformed _ _ _ failed => cases not_isInclude_of_tokenize failed
  · rintro ⟨missing, not_found, rfl, rfl, rfl⟩
    cases response with
    | tooDeep too_deep => exact (level too_deep).elim
    | notFound _ not_found' =>
        cases not_found.symm.trans not_found'
        rfl
    | cycle _ found | malformed _ found | expanded _ found =>
        cases not_found.symm.trans found

theorem Response.cycle_iff
    (response : Response resolver limit moment directive rest path result)
    (level : moment.stack.length ≠ limit) {file : IncludedFile}
    (found : resolver path moment.file = .ok file) (again : String) (position : Position) :
    result = .done (.error { cause := .includeCycle again, position }) ↔
      file.path ∈ moment.stack ∧ again = file.path ∧ position = directive.start := by
  constructor
  · rintro rfl
    cases response with
    | cycle _ found' member =>
        cases found.symm.trans found'
        exact ⟨member, rfl, rfl⟩
    | malformed _ _ _ failed => cases not_isInclude_of_tokenize failed
  · rintro ⟨member, rfl, rfl⟩
    cases response with
    | tooDeep too_deep => exact (level too_deep).elim
    | notFound _ not_found => cases found.symm.trans not_found
    | cycle _ found' =>
        cases found.symm.trans found'
        rfl
    | malformed _ found' fresh | expanded _ found' fresh =>
        cases found.symm.trans found'
        exact (fresh member).elim

theorem Response.result_eq
    (response : Response resolver limit moment directive rest path result)
    (level : moment.stack.length ≠ limit) {file : IncludedFile}
    (found : resolver path moment.file = .ok file) (fresh : file.path ∉ moment.stack) :
    result =
      match tokenize (.included file.path) file.text with
      | .error failure => .done (.error failure)
      | .ok tokens =>
          .next { moment with nested := (file.path, rest) :: moment.nested, tokens } := by
  cases response with
  | tooDeep too_deep => exact (level too_deep).elim
  | notFound _ not_found => cases found.symm.trans not_found
  | cycle _ found' member =>
      cases found.symm.trans found'
      exact (fresh member).elim
  | malformed _ found' _ tokens_eq | expanded _ found' _ tokens_eq =>
      cases found.symm.trans found'
      rw [tokens_eq]

end

theorem carriesOut_of_asks (asks : moment.Asks directive rest path)
    (level_le : moment.stack.length ≤ limit) (file_eq : directive.start.file = moment.file) :
    moment.CarriesOut resolver limit directive rest path := by
  have response : Response resolver limit moment directive rest path
      (moment.advance resolver limit) := response_of_asks asks level_le file_eq
  refine ⟨response.tooDeep_iff, response.notFound_iff, response.cycle_iff, response.result_eq, ?_⟩
  intro inner later enters reaches
  rw [enters] at response
  cases response with
  | expanded => exact returns_of_reaches rfl reaches

theorem Sound.subset {files : List (String × String)}
    (sound : Sound (Resolver.ofFiles files) limit text nested tokens) :
    nested.map Prod.fst ⊆ files.map Prod.fst := by
  intro path member
  obtain ⟨content, supplies⟩ := sound.supplied path member
  cases supplies with
  | included found =>
      rename_i asked requester file
      unfold Resolver.ofFiles at found
      split at found
      · rename_i content content_eq
        cases found
        obtain ⟨front, back, files_eq, -⟩ := List.lookup_eq_some_iff.mp content_eq
        simp [files_eq]
      · cases found

end Moment
end Build

/-- The token is one of a file that the script is read from. -/
def Token.Occurs (token : Token) (resolver : Resolver) (text : String) (file : SourceFile) :
    Prop :=
  ∃ content whole, Supplies resolver text file content ∧ tokenize file content = .ok whole ∧
    token ∈ whole

/-- The token stands at its place in a file. -/
def Token.StandsIn (token : Token) (file : SourceFile) (content : String) : Prop :=
  ∃ before after, content.toList = before ++ (token.text.toList ++ after) ∧
    token.start.Marks file before

section

variable {resolver : Resolver} {text : String} {file : SourceFile} {token : Token}
  {tokens : List Token}

theorem Build.Remains.occurs (remains : Remains resolver text file (token :: tokens)) :
    token.Occurs resolver text file := by
  obtain ⟨content, whole, supplies, whole_eq, ends⟩ := remains
  exact ⟨content, whole, supplies, whole_eq, ends.subset List.mem_cons_self⟩

theorem Token.Occurs.stands (occurs : token.Occurs resolver text file) :
    ∃ content, Supplies resolver text file content ∧ token.StandsIn file content := by
  obtain ⟨content, whole, supplies, whole_eq, member⟩ := occurs
  obtain ⟨before, after, emits, content_eq⟩ := Lexing.emits_of_tokenize whole_eq member
  refine ⟨content, supplies, before, after, content_eq, ?_⟩
  rw [(Lexing.coordinates_of_emits emits).1]
  exact Position.marks_advance file before

theorem Token.Occurs.start_file (occurs : token.Occurs resolver text file) :
    token.start.file = file := by
  obtain ⟨-, -, before, -, -, marks⟩ := occurs.stands
  rw [marks.position_eq, Position.advance_file]
  rfl

end

/-- A build passes through finitely many moments, whatever the limit is.  At each of them the files
that are being expanded are different files, no more than the limit allows.  An include directive
with a valid argument does what the level, the files and the files that are being expanded tell,
and nothing else is refused as an include. -/
theorem includes_of_build (files : List (String × String)) (options : BuildOptions)
    (bindings : Variable.Table) (text : String) :
    let resolver := Resolver.ofFiles files
    let limit := options.maxIncludeDepth
    match tokenize .script text with
    | .error failure => build resolver options bindings text = .error failure
    | .ok tokens =>
        ∃ last result, last.advance resolver limit = .done result ∧
          build resolver options bindings text = Build.scriptOf result ∧
            ∀ moment : Build.Moment,
              (Build.Moment.first options bindings tokens).Reaches resolver limit moment →
                moment.Reaches resolver limit last ∧
                moment.stack.Nodup ∧
                moment.stack.length ≤ limit ∧
                moment.stack ⊆ files.map Prod.fst ∧
                (∀ failure, moment.Fails resolver limit failure →
                  build resolver options bindings text = .error failure ∧
                    (failure.cause.isInclude = true →
                      ∃ directive rest path, moment.Asks directive rest path)) ∧
                ∀ directive rest path, moment.Asks directive rest path →
                  (∃ content, Supplies resolver text moment.file content ∧
                    directive.StandsIn moment.file content) ∧
                  moment.CarriesOut resolver limit directive rest path := by
  intro resolver limit
  cases tokens_eq : tokenize .script text with
  | error failure =>
      rw [build, tokens_eq]
      rfl
  | ok tokens =>
      obtain ⟨last, result, reaches, ends, built⟩ :=
        Build.last_of_buildTokens resolver options bindings tokens
      have result_eq : build resolver options bindings text = Build.scriptOf result := by
        rw [build, tokens_eq]
        exact built
      refine ⟨last, result, ends, result_eq, fun moment passes => ?_⟩
      have onward := Build.Moment.reaches_last reaches ends passes
      have sound := Build.Moment.sound_of_reaches tokens_eq passes
      have level_le : moment.stack.length ≤ limit := by
        rw [Build.Moment.stack, List.length_map]
        exact sound.length_le
      refine ⟨onward, sound.nodup, level_le, sound.subset, fun failure fails => ⟨?_, ?_⟩, ?_⟩
      · obtain rfl := Build.Moment.eq_of_reaches fails onward
        cases fails.symm.trans ends
        exact result_eq
      · exact Build.Moment.asks_of_fails fails
      intro directive rest path asks
      have remains := sound.remains
      rw [asks.tokens_eq] at remains
      obtain ⟨content, supplies, stands⟩ := remains.occurs.stands
      refine ⟨⟨content, supplies, stands⟩, Build.Moment.carriesOut_of_asks asks level_le ?_⟩
      obtain ⟨before, -, -, marks⟩ := stands
      rw [marks.position_eq, Position.advance_file]
      rfl

/-- A file is drawn in again and again where it is not nested in itself. -/
example :
    (build (Resolver.ofFiles [("a", "x\n"), ("b", ":r a\n:r a\n")]) { maxIncludeDepth := 2 }
      (Variable.Table.ofList []) ":r a\n:r b\n:r a\n:r b").toBool = true := by
  decide +kernel

end SqlScript
