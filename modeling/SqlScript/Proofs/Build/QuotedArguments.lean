import SqlScript.Proofs.Build.Nesting
import SqlScript.Proofs.Build.Prose
import SqlScript.Proofs.Token.Concatenation

/-!
# Quoted arguments

An argument in quotes, with every quote in it written twice, is read as it was before.  This holds
of the value of an assignment, which is read character by character, and of the other arguments,
which lose their first and last quote before the others are collapsed (`arguments_of_build`).  A
target that is read so is the one that the script has in the end, unless another is named behind
it.
-/

namespace SqlScript
namespace Command

/-- The text with each quote written twice. -/
def doubleQuotes (text : List Char) : List Char :=
  text.flatMap fun c => if c = '"' then ['"', '"'] else [c]

/-- The text as a quoted argument. -/
def inQuotes (text : List Char) : List Char :=
  '"' :: (doubleQuotes text ++ ['"'])

@[simp]
theorem doubleQuotes_nil : doubleQuotes [] = [] := rfl

@[simp]
theorem doubleQuotes_quote (text : List Char) :
    doubleQuotes ('"' :: text) = '"' :: '"' :: doubleQuotes text := rfl

theorem doubleQuotes_cons {c : Char} (text : List Char) (not_quote : c ≠ '"') :
    doubleQuotes (c :: text) = c :: doubleQuotes text := by
  simp [doubleQuotes, not_quote]

theorem mem_doubleQuotes {c : Char} {text : List Char} (member : c ∈ doubleQuotes text) :
    c ∈ text := by
  obtain ⟨d, d_mem, c_mem⟩ := List.mem_flatMap.mp member
  split at c_mem <;> simp_all

theorem collapseQuotes_doubleQuotes (text : List Char) :
    collapseQuotes (doubleQuotes text) = text := by
  induction text with
  | nil => rfl
  | cons c text ih =>
      by_cases quote : c = '"'
      · subst quote
        rw [doubleQuotes_quote, collapseQuotes, ih]
      · rw [doubleQuotes_cons text quote, collapseQuotes, ih]
        exact fun _ c_eq => absurd c_eq quote

theorem quotedValue?_doubleQuotes (text : List Char) :
    quotedValue? (doubleQuotes text ++ ['"']) = some text := by
  induction text with
  | nil => rfl
  | cons c text ih =>
      by_cases quote : c = '"'
      · subst quote
        rw [doubleQuotes_quote, List.cons_append, List.cons_append, quotedValue?, ih]
        rfl
      · rw [doubleQuotes_cons text quote, List.cons_append, quotedValue?, ih]
        · rfl
        all_goals simp [quote]

theorem unquote_inQuotes (text : List Char) : unquote (inQuotes text) = text := by
  simp [inQuotes, unquote, collapseQuotes_doubleQuotes]

/-- What the doubled quotes part was not together before. -/
theorem prefix_of_doubleQuotes {c : Char} {text : List Char} (not_quote : c ≠ '"')
    (begins : [c] <+: doubleQuotes text ++ ['"']) : [c] <+: text := by
  obtain ⟨behind, text_eq⟩ := begins
  cases text with
  | nil => simp_all
  | cons d text =>
      by_cases quote : d = '"'
      · simp_all
      · rw [doubleQuotes_cons text quote] at text_eq
        exact ⟨text, by rw [(List.cons.inj text_eq).1]; rfl⟩

/-- No reference begins in an argument because of its quotes. -/
theorem plain_inQuotes {text : List Char} (plain : Variable.Plain text) :
    Variable.Plain (inQuotes text) := by
  have not_at_quote (behind : List Char) : ¬['$', '('] <+: '"' :: behind := by simp
  intro inside
  have in_doubled := (List.infix_cons_iff.mp inside).resolve_left (not_at_quote _)
  clear inside
  induction text with
  | nil => exact absurd in_doubled (by decide)
  | cons c text ih =>
      have plain_text : Variable.Plain text := fun reference => plain (List.infix_cons reference)
      by_cases quote : c = '"'
      · subst quote
        have behind_quote := (List.infix_cons_iff.mp in_doubled).resolve_left (not_at_quote _)
        exact ih plain_text ((List.infix_cons_iff.mp behind_quote).resolve_left (not_at_quote _))
      · rw [doubleQuotes_cons text quote, List.cons_append] at in_doubled
        rcases List.infix_cons_iff.mp in_doubled with begins | in_doubled
        · obtain ⟨rfl, opens⟩ := List.cons_prefix_cons.mp begins
          have opens_text := prefix_of_doubleQuotes (by decide) opens
          exact plain (List.cons_prefix_cons.mpr ⟨rfl, opens_text⟩).isInfix
        · exact ih plain_text in_doubled

theorem trimmed_inQuotes (text : List Char) : Text.Trimmed (inQuotes text) where
  first := ⟨'"', rfl, by decide⟩
  last c last := by
    have c_eq : '"' = c := by simpa [inQuotes, List.getLast?_cons] using last
    rw [← c_eq]
    decide

theorem one_line_inQuotes {text : List Char} (one_line : '\n' ∉ text) : '\n' ∉ inQuotes text := by
  intro member
  rcases List.mem_append.mp ((List.mem_cons.mp member).resolve_left (by decide)) with inside | close
  · exact one_line (mem_doubleQuotes inside)
  · simp at close

end Command

namespace Lexeme

variable {kind : CommandKind} {arguments behind : List Char}

theorem not_isIndent_of_not_isBlank {c : Char} (not_blank : Text.isBlank c = false) :
    isIndent c = false := by
  refine Bool.eq_false_iff.mpr fun indent => ?_
  simp only [isIndent, Bool.or_eq_true, beq_iff_eq] at indent
  rcases indent with (rfl | rfl) | rfl <;> exact absurd not_blank (by decide)

/-- The line of a command as it is usually written. -/
def wordLine (kind : CommandKind) (arguments : List Char) : List Char :=
  kind.display.toList ++ ' ' :: arguments

/-- The line of a command, in front of the end of the line. -/
theorem commandLine_eq (kind : CommandKind) (lead : List Char) (one_line : '\n' ∉ arguments)
    (trimmed : Text.Trimmed arguments) (ends : ∀ c ∈ behind.head?, c = '\n') :
    commandLine kind lead (' ' :: (arguments ++ behind)) =
      { form := .command kind (lead ++ [' ']) arguments
        text := lead ++ ' ' :: arguments
        rest := behind
        freshLine := false } := by
  obtain ⟨c, head, not_blank⟩ := trimmed.first
  have gap : Text.Run isIndent (' ' :: (arguments ++ behind)) [' '] (arguments ++ behind) :=
    { append_eq := rfl
      inside := by simp [isIndent]
      boundary := by
        rw [List.head?_append, head]
        simpa using not_isIndent_of_not_isBlank not_blank }
  have line : Text.Run isInLine (arguments ++ behind) arguments behind :=
    { append_eq := rfl
      inside := fun c member => bne_iff_ne.mpr fun feed => one_line (feed ▸ member)
      boundary := fun c head => by simp [ends c head, isInLine] }
  simp only [commandLine, gap.takeWhile_eq, gap.dropWhile_eq, line.takeWhile_eq, line.dropWhile_eq,
    Text.trimRight_eq_self trimmed.last]
  simp

theorem word_of_kind (kind_ne : kind ≠ .onError) :
    (kind.name.toList.head?.any Char.isAlpha && kind.name.toList.all Text.isWordCharacter) = true ∧
      Text.lowercase kind.name.toList = kind.name.toList := by
  cases kind <;> first | contradiction | decide

/-- A command that is named by one word is found where a line begins. -/
theorem scan?_wordLine (kind_ne : kind ≠ .onError) (one_line : '\n' ∉ arguments)
    (trimmed : Text.Trimmed arguments) (ends : ∀ c ∈ behind.head?, c = '\n') :
    scan? true (wordLine kind arguments ++ behind) =
      some (.ok
        { form := .command kind (kind.display.toList ++ [' ']) arguments
          text := wordLine kind arguments
          rest := behind
          freshLine := false }) := by
  obtain ⟨word, lowercase_eq⟩ := word_of_kind kind_ne
  obtain ⟨letter, inside⟩ := Bool.and_eq_true_iff.mp word
  have run : Text.Run Text.isWordCharacter (kind.name.toList ++ ' ' :: (arguments ++ behind))
      kind.name.toList (' ' :: (arguments ++ behind)) :=
    { append_eq := rfl
      inside := List.all_eq_true.mp inside
      boundary := by
        rintro c ⟨⟩
        decide }
  have found := commandFrom_of_name (.word run kind_ne lowercase_eq)
  rw [commandLine_eq kind _ one_line trimmed ends] at found
  have begins :
      (kind.name.toList ++ ' ' :: (arguments ++ behind)).head?.any Char.isAlpha = true := by
    rw [List.head?_append]
    cases head : kind.name.toList.head? with
    | none => simp [head] at letter
    | some c => simpa [head] using letter
  have source_eq : wordLine kind arguments ++ behind =
      ':' :: (kind.name.toList ++ ' ' :: (arguments ++ behind)) := by
    simp [wordLine, CommandKind.display]
  refine scan?_of_scans (.directive ?_)
  rw [source_eq, directive?, if_pos begins, found]
  simp [wordLine, CommandKind.display]

end Lexeme

theorem Variable.not_isBlank_of_isName {name : List Char} (is_name : isName name = true) :
    ∀ c ∈ name, Text.isBlank c = false := by
  intro c member
  rcases Bool.or_eq_true_iff.mp (isNamePart_of_isName is_name c member) with word | hyphen
  · exact Text.not_isBlank_of_isWordCharacter word
  · rw [beq_iff_eq.mp hyphen]
    decide

namespace Command

variable {command : Command} {name value : List Char}

theorem requiredArgument_inQuotes (bindings : Variable.Table) (missing : String)
    (arguments_eq : command.arguments = String.ofList (inQuotes value))
    (plain : Variable.Plain value) (value_ne : value ≠ []) :
    command.requiredArgument bindings missing = .ok (String.ofList value) := by
  rw [requiredArgument, arguments_eq, String.toList_ofList,
    bindings.substitute_eq_self _ (plain_inQuotes plain)]
  dsimp only [bind, Except.bind]
  rw [(trimmed_inQuotes value).trim_eq, unquote_inQuotes]
  split
  · contradiction
  · rfl

/-- The name and the quoted value of an assignment. -/
theorem trimmed_assignment (is_name : Variable.isName name = true) (value : List Char) :
    Text.Trimmed (name ++ ' ' :: inQuotes value) where
  first := by
    cases name with
    | nil => contradiction
    | cons c rest => exact ⟨c, rfl, Variable.not_isBlank_of_isName is_name c List.mem_cons_self⟩
  last c last := by
    rw [List.getLast?_append_of_ne_nil _ (by simp), List.getLast?_cons_of_ne_nil
      (trimmed_inQuotes value).ne_nil] at last
    exact (trimmed_inQuotes value).last c last

theorem one_line_assignment (is_name : Variable.isName name = true) (one_line : '\n' ∉ value) :
    '\n' ∉ name ++ ' ' :: inQuotes value := by
  intro member
  rcases List.mem_append.mp member with in_name | in_value
  · exact absurd (Variable.not_isBlank_of_isName is_name '\n' in_name) (by decide)
  · exact one_line_inQuotes one_line (by simpa using in_value)

/-- An assignment takes away the quotes before it puts in values. -/
theorem assignment_substitute (bindings : Variable.Table)
    (arguments_eq : command.arguments = String.ofList (name ++ ' ' :: inQuotes value))
    (is_name : Variable.isName name = true) :
    command.assignment bindings =
      (bindings.substitute command.argumentsStart value).map fun text =>
        (String.ofList name, some (String.ofList text)) := by
  have run : Text.Run (!Text.isBlank ·) (name ++ ' ' :: inQuotes value) name
      (' ' :: inQuotes value) :=
    { append_eq := rfl
      inside := fun c member => by simp [Variable.not_isBlank_of_isName is_name c member]
      boundary := by
        rintro c ⟨⟩
        decide }
  have name_ne : name ≠ [] := by
    rintro rfl
    contradiction
  rw [assignment, arguments_eq, String.toList_ofList,
    (trimmed_assignment is_name value).trim_eq, run.takeWhile_eq, run.dropWhile_eq,
    (trimmed_inQuotes value).trim_cons (by decide)]
  simp only [name_ne, is_name, inQuotes, quotedValue?_doubleQuotes, List.isEmpty_iff, Bool.not_true,
    Bool.false_eq_true, if_false, if_true, pure_bind]
  rfl

theorem assignment_inQuotes (bindings : Variable.Table)
    (arguments_eq : command.arguments = String.ofList (name ++ ' ' :: inQuotes value))
    (is_name : Variable.isName name = true) (plain : Variable.Plain value) :
    command.assignment bindings = .ok (String.ofList name, some (String.ofList value)) := by
  rw [assignment_substitute bindings arguments_eq is_name, bindings.substitute_eq_self _ plain]
  rfl

end Command

namespace Lexing

/-- A command that is named by one word, in front of the end of its line. -/
theorem run_wordLine {kind : CommandKind} {arguments behind : List Char} (start : Position)
    (kind_ne : kind ≠ .onError) (one_line : '\n' ∉ arguments) (trimmed : Text.Trimmed arguments)
    (ends : ∀ c ∈ behind.head?, c = '\n') :
    ∃ token argumentsStart, token.start = start ∧
      token.kind = .command { kind, arguments := String.ofList arguments, argumentsStart } ∧
        run start true (Lexeme.wordLine kind arguments ++ behind) =
          cons token (run (start.advance (Lexeme.wordLine kind arguments)) false behind) :=
  ⟨_, _, rfl, rfl, run_of_lexeme start (Lexeme.scan?_wordLine kind_ne one_line trimmed ends)⟩

end Lexing

/-- The script is made of the text behind a line, and records what the text names for commands of a
kind, or else `target`. -/
def Script.RecordsBehind (script : Script) (resolver : Resolver) (bindings : Variable.Table)
    (start : Position) (behind : List Char) (kind : CommandKind) (target : String)
    (closed : Nat) : Prop :=
  ∃ tokens flat flow last, (Lexing.run start false behind).result = .ok tokens ∧
    Expands resolver bindings tokens flat flow last ∧
      script.Records kind target closed bindings flat flow

namespace Build

/-- The script that is built from the text behind a line, where a walk has come so far. -/
def scriptBehind (resolver : Resolver) (options : BuildOptions) (walked : Walk) (start : Position)
    (behind : List Char) : Except ParseError Script := do
  let tokens ← (Lexing.run start false behind).result
  scriptOf do
    match ← walked with
    | (.goOn, draft) => walk (expansion resolver options.maxIncludeDepth []) tokens draft
    | (.stop, draft) => return (.stop, draft)

theorem recordsBehind_of_scriptBehind {resolver : Resolver} {options : BuildOptions}
    {draft : Draft} {kind : CommandKind} {target : String} {start : Position} {behind : List Char}
    {script : Script}
    (made : scriptBehind resolver options (.ok (.goOn, draft.record kind target)) start behind =
      .ok script) :
    script.RecordsBehind resolver draft.bindings start behind kind target draft.batches.size := by
  obtain ⟨tokens, lexed, walked⟩ := ok_of_bind made
  obtain ⟨flat, flow, last, expands, records⟩ := records_of_scriptOf walked
  exact ⟨tokens, flat, flow, last, lexed, expands, records⟩

/-- Prose behind a line makes one more batch with the pending text. -/
theorem scriptBehind_of_filled (resolver : Resolver) (options : BuildOptions) {draft : Draft}
    {start : Position} {behind text : List Char} {tokens : List Token}
    (lexed : (Lexing.run start false behind).result = .ok tokens)
    (plain : ∀ token ∈ tokens, token.kind.isDirective = false)
    (filled : draft.bindings.fill none tokens = .ok text) (tracked : draft.pending.Tracked)
    (not_blank : Text.isBlankText (draft.pending.text.toList ++ text) = false) :
    ∃ script batch, scriptBehind resolver options (.ok (.goOn, draft)) start behind = .ok script ∧
      script.batches = draft.batches.push batch ∧
        batch.text.toList = draft.pending.text.toList ++ text ∧
          batch.connectTarget = draft.connectTarget ∧
            script.outputTargets = draft.outputTargets := by
  obtain ⟨script, batch, made, parts⟩ := script_of_filled
    (expansion resolver options.maxIncludeDepth []) plain filled tracked not_blank
  refine ⟨script, batch, ?_, parts⟩
  rw [scriptBehind, lexed]
  exact made

/-- A script is built from the line of a command as the command is carried out where the text before
it ends. -/
theorem build_of_wordLine_behind {resolver : Resolver} {options : BuildOptions}
    {bindings : Variable.Table} {front text : String} {tokens : List Token} {draft : Draft}
    {kind : CommandKind} {arguments behind : List Char} {walked : Walk}
    (ends_line : (Lexing.ofText .script front).EndsLine)
    (tokens_eq : tokenize .script front = .ok tokens)
    (reached : walk (expansion resolver options.maxIncludeDepth []) tokens
      (Draft.start options bindings) = .ok (.goOn, draft))
    (kind_ne : kind ≠ .onError) (one_line : '\n' ∉ arguments) (trimmed : Text.Trimmed arguments)
    (ends : ∀ c ∈ behind.head?, c = '\n')
    (text_eq : text.toList = front.toList ++ (Lexeme.wordLine kind arguments ++ behind))
    (performed : ∀ argumentsStart,
      perform (expansion resolver options.maxIncludeDepth [])
        { kind, arguments := String.ofList arguments, argumentsStart }
        ((Position.startOf .script).advance front.toList) draft = walked) :
    build resolver options bindings text =
      scriptBehind resolver options walked
        ((Position.startOf .script).advance (front.toList ++ Lexeme.wordLine kind arguments))
        behind := by
  obtain ⟨token, argumentsStart, start_eq, kind_eq, run_eq⟩ :=
    Lexing.run_wordLine ((Position.startOf .script).advance front.toList) kind_ne one_line trimmed
      ends
  have accepted : accept (expansion resolver options.maxIncludeDepth []) token draft = walked := by
    rw [accept, kind_eq, start_eq]
    exact performed argumentsStart
  rw [build, tokenize, Lexing.ofText, text_eq, Lexing.run_behind ends_line tokens_eq, run_eq,
    scriptBehind, Position.advance_append]
  rcases Lexing.run _ false behind with ⟨later, _ | failure⟩
  · change buildTokens resolver options bindings (tokens ++ token :: later) = scriptOf _
    rw [buildTokens_eq, walk_append, reached]
    dsimp only
    rw [walk_cons, accepted]
    rcases walked with failure | ⟨_ | _, draft⟩ <;> rfl
  · rfl

theorem build_of_wordLine (resolver : Resolver) (options : BuildOptions)
    (bindings : Variable.Table) {kind : CommandKind} {arguments behind : List Char} {text : String}
    {walked : Walk} (kind_ne : kind ≠ .onError) (one_line : '\n' ∉ arguments)
    (trimmed : Text.Trimmed arguments) (ends : ∀ c ∈ behind.head?, c = '\n')
    (text_eq : text.toList = Lexeme.wordLine kind arguments ++ behind)
    (performed : ∀ argumentsStart,
      perform (expansion resolver options.maxIncludeDepth [])
        { kind, arguments := String.ofList arguments, argumentsStart }
        (Position.startOf .script) (Draft.start options bindings) = walked) :
    build resolver options bindings text =
      scriptBehind resolver options walked
        ((Position.startOf .script).advance (Lexeme.wordLine kind arguments)) behind := by
  have nothing : Lexing.ofText .script "" = { tokens := [], failure := none } :=
    Lexing.run_of_finished _ rfl
  have ends_line : (Lexing.ofText .script "").EndsLine := by simp [Lexing.EndsLine, nothing]
  have tokens_eq : tokenize .script "" = .ok [] := by
    rw [tokenize, nothing]
    rfl
  have front_eq : "".toList = [] := String.toList_empty
  have split_eq : text.toList = "".toList ++ (Lexeme.wordLine kind arguments ++ behind) := by
    rw [front_eq, List.nil_append, text_eq]
  have built_eq := build_of_wordLine_behind ends_line tokens_eq rfl kind_ne one_line trimmed ends
    split_eq (by rw [front_eq]; exact performed)
  rwa [front_eq, List.nil_append] at built_eq

section

variable {command : Command} {draft : Draft} (position : Position)

theorem perform_of_target (expansion : Expansion) {target : String}
    (recorded : command.kind ∈ [.connect, .out, .error, .perfTrace])
    (argument : ∀ missing, command.requiredArgument draft.bindings missing = .ok target) :
    perform expansion command position draft = .ok (.goOn, draft.record command.kind target) := by
  unfold perform
  generalize command.kind = kind at recorded
  simp only [List.mem_cons, List.not_mem_nil, or_false] at recorded
  rcases recorded with rfl | rfl | rfl | rfl <;> simp only [targetOf, argument] <;> rfl

theorem perform_of_assignment (expansion : Expansion) {name value : String}
    (kind_eq : command.kind = .setVar)
    (assigned : command.assignment draft.bindings = .ok (name, some value)) :
    perform expansion command position draft =
      .ok (.goOn, { draft with bindings := draft.bindings.insert name value }) := by
  unfold perform
  rw [kind_eq]
  dsimp only
  rw [assigned]
  rfl

/-- An include directive of a script reads the file that its argument names. -/
theorem perform_of_include (resolver : Resolver) {limit : Nat} {path : String}
    (kind_eq : command.kind = .includeFile) (nests : 0 < limit)
    (argument : ∀ missing, command.requiredArgument draft.bindings missing = .ok path) :
    perform (expansion resolver limit []) command position draft =
      (match resolver path position.file with
      | .error missing => .error { cause := .includeNotFound path missing.message, position }
      | .ok file => do
          let tokens ← tokenize (.included file.path) file.text
          walk (expansion resolver limit [file.path]) tokens draft) := by
  have performed : perform (expansion resolver limit []) command position draft =
      expansion resolver limit [] command position draft := by
    rw [perform, kind_eq]
  rw [performed, expansion_eq]
  cases found : resolver path position.file with
  | error missing => rw [drawIn_of_notFound (argument _) nests found]
  | ok file =>
      rw [drawIn_of_fresh (argument _) nests found (by simp)]
      dsimp only
      cases tokenize (.included file.path) file.text <;> rfl

end

/-- A line that refers to a variable, behind the end of another line, makes one piece.  It need not
be prose, because a name may contain what begins a comment elsewhere. -/
theorem fill_of_reference_line (start : Position) {name : List Char}
    (is_name : Variable.isName name = true) :
    ∃ tokens, (Lexing.run start false
        ('\n' :: 'X' :: '$' :: '(' :: (name ++ [')']))).result = .ok tokens ∧
      (∀ token ∈ tokens, token.kind.isDirective = false) ∧
        ∀ (table : Variable.Table) (value : String), table.get? (String.ofList name) = some value →
          table.fill none tokens = .ok ('\n' :: 'X' :: value.toList) := by
  let reference : Lexeme :=
    { form := .reference name, text := '$' :: '(' :: (name ++ [')']), rest := []
      freshLine := false }
  let word : Lexeme :=
    { form := .text, text := ['X'], rest := '$' :: '(' :: (name ++ [')']), freshLine := false }
  let feed : Lexeme :=
    { form := .text, text := ['\n'], rest := 'X' :: '$' :: '(' :: (name ++ [')'])
      freshLine := true }
  have feed_scanned : Lexeme.scan? false ('\n' :: feed.rest) = some (.ok feed) := rfl
  have word_scanned : Lexeme.scan? true ('X' :: word.rest) = some (.ok word) := by
    have not_directive : Lexeme.directive? (('X' :: word.rest).dropWhile Lexeme.isIndent) = none :=
      Lexeme.directive?_eq_none word.rest (by decide) (by decide)
    exact Lexeme.scan?_of_scans (.inLine fun _ => not_directive)
  have reference_scanned : Lexeme.scan? false ('$' :: '(' :: (name ++ [')'])) =
      some (.ok reference) :=
    congrArg some (Lexeme.referenceFrom_of_isName is_name [])
  refine ⟨[feed.tokenFrom start, word.tokenFrom (start.advance feed.text),
    reference.tokenFrom ((start.advance feed.text).advance word.text)], ?_, ?_, ?_⟩
  · rw [Lexing.run_of_lexeme start feed_scanned, Lexing.run_of_lexeme _ word_scanned,
      Lexing.run_of_lexeme _ reference_scanned, Lexing.run_of_finished _ rfl]
    rfl
  · simp [Lexeme.tokenFrom, feed, word, reference, Form.kindFrom, TokenKind.isDirective]
  · intro table value found
    simp only [Variable.Table.fill, table.given_of_text _ (show feed.form = .text from rfl),
      table.given_of_text _ (show word.form = .text from rfl),
      table.given_of_reference _ (show reference.form = .reference name from rfl),
      Variable.Table.resolve, found]
    exact congrArg (fun text => Except.ok ('\n' :: 'X' :: text)) (List.append_nil value.toList)

/-- A line with a word, behind the end of another line, is text. -/
theorem fill_of_word_line (table : Variable.Table) (start : Position) :
    ∃ tokens, (Lexing.run start false ['\n', 'X']).result = .ok tokens ∧
      (∀ token ∈ tokens, token.kind.isDirective = false) ∧
        table.fill none tokens = .ok ['\n', 'X'] := by
  have prose : Prose ['\n', 'X'] false := .of_tails (by decide +kernel) (by decide +kernel)
  have plain : Variable.Plain ['\n', 'X'] := by simp [Variable.Plain, List.infix_cons_iff]
  have filled := (table.substitute_eq_fill start prose).symm.trans
    (table.substitute_eq_self start plain)
  have not_directive := prose.not_isDirective start
  generalize Lexing.run start false ['\n', 'X'] = lexing at filled not_directive ⊢
  rcases lexing with ⟨tokens, _ | failure⟩
  · exact ⟨tokens, rfl, not_directive, filled⟩
  · exact (table.fill_error failure tokens _ filled).elim

/-- A target that is recorded in front of a line of text is the target of the script, or of the
batch with this line. -/
theorem scriptBehind_of_record (resolver : Resolver) (options : BuildOptions) (draft : Draft)
    (kind : CommandKind) (target : String) (start : Position) (tracked : draft.pending.Tracked) :
    ∃ script batch,
      scriptBehind resolver options (.ok (.goOn, draft.record kind target)) start ['\n', 'X'] =
          .ok script ∧
        script.batches = draft.batches.push batch ∧ batch.text = draft.pending.text ++ "\nX" ∧
          (kind = .connect → batch.connectTarget = some target) ∧
            (kind ∈ OutputTargets.kinds → script.outputTargets.target? kind = some target) := by
  obtain ⟨tokens, lexed, plain, filled⟩ := fill_of_word_line draft.bindings start
  have not_blank : Text.isBlankText (draft.pending.text.toList ++ ['\n', 'X']) = false := by
    have word : Text.isBlank 'X' = false := by decide
    simp [Text.isBlankText, word]
  rw [← bindings_record draft kind target] at filled
  rw [← pending_record draft kind target] at tracked not_blank
  obtain ⟨script, batch, made, pushed, text_eq, server_eq, outputs_eq⟩ :=
    scriptBehind_of_filled resolver options lexed plain filled tracked not_blank
  rw [pending_record] at text_eq
  refine ⟨script, batch, made, by rw [pushed, batches_record], ?_, fun connects => ?_,
    fun output => by rw [outputs_eq, target?_record draft target output]⟩
  · rw [← String.toList_inj, text_eq, String.toList_append]
    rfl
  · rw [server_eq, connects]
    rfl

/-- A value that is assigned in front of a line that refers to the variable stands in the batch with
this line. -/
theorem scriptBehind_of_assignment (resolver : Resolver) (options : BuildOptions) (draft : Draft)
    {name : String} (value : String) (is_name : Variable.isName name.toList = true)
    (start : Position) (tracked : draft.pending.Tracked) :
    ∃ script batch,
      scriptBehind resolver options
          (.ok (.goOn, { draft with bindings := draft.bindings.insert name value })) start
          ('\n' :: 'X' :: '$' :: '(' :: (name.toList ++ [')'])) = .ok script ∧
        script.batches = draft.batches.push batch ∧
          batch.text = draft.pending.text ++ "\nX" ++ value := by
  obtain ⟨tokens, lexed, plain, filled⟩ := fill_of_reference_line start is_name
  have not_blank :
      Text.isBlankText (draft.pending.text.toList ++ '\n' :: 'X' :: value.toList) = false := by
    have word : Text.isBlank 'X' = false := by decide
    simp [Text.isBlankText, word]
  have filled_after :
      (Draft.bindings { draft with bindings := draft.bindings.insert name value }).fill none
        tokens = .ok ('\n' :: 'X' :: value.toList) :=
    filled _ value (by simp [Variable.Table.get?_insert])
  obtain ⟨script, batch, made, pushed, text_eq, -, -⟩ :=
    scriptBehind_of_filled resolver options lexed plain filled_after tracked not_blank
  refine ⟨script, batch, made, pushed, ?_⟩
  rw [← String.toList_inj, text_eq]
  simp

/-- The value of a quoted assignment comes to the text of a batch. -/
theorem build_of_assignment (resolver : Resolver) (options : BuildOptions)
    (bindings : Variable.Table) {name value text : String}
    (is_name : Variable.isName name.toList = true) (one_line : '\n' ∉ value.toList)
    (plain : Variable.Plain value.toList)
    (text_eq : text.toList =
      Lexeme.wordLine .setVar (name.toList ++ ' ' :: Command.inQuotes value.toList) ++
        '\n' :: 'X' :: '$' :: '(' :: (name.toList ++ [')'])) :
    ∃ script, build resolver options bindings text = .ok script ∧
      script.batches.toList.map Batch.text = ["\nX" ++ value] := by
  have built_eq := build_of_wordLine resolver options bindings (by decide)
    (Command.one_line_assignment is_name one_line) (Command.trimmed_assignment is_name _)
    (by simp) text_eq fun argumentsStart =>
      perform_of_assignment _ _ rfl (Command.assignment_inQuotes bindings rfl is_name plain)
  rw [String.ofList_toList, String.ofList_toList] at built_eq
  obtain ⟨script, batch, made, pushed, batch_text⟩ :=
    scriptBehind_of_assignment resolver options (Draft.start options bindings) value is_name _
      fun _ => rfl
  refine ⟨script, built_eq.trans made, ?_⟩
  rw [pushed]
  simp [Draft.start, batch_text]

end Build

/-- Quoted arguments are read as they were before they were quoted, blanks and quotes included.  An
assigned value comes to the text of a batch, a target is recorded, and a file is looked for by its
path. -/
theorem arguments_of_build (resolver : Resolver) (options : BuildOptions)
    (bindings : Variable.Table) {value : String} (one_line : '\n' ∉ value.toList)
    (plain : Variable.Plain value.toList) :
    let quoted := String.ofList (Command.inQuotes value.toList)
    (∀ name : String, Variable.isName name.toList = true →
      ∃ script,
        build resolver options bindings
            (":setvar " ++ name ++ " " ++ quoted ++ "\nX$(" ++ name ++ ")") = .ok script ∧
          script.batches.toList.map Batch.text = ["\nX" ++ value]) ∧
      (value ≠ "" →
        (∀ kind ∈ [.connect, .out, .error, .perfTrace],
          ∃ script batch,
            build resolver options bindings (kind.display ++ " " ++ quoted ++ "\nX") = .ok script ∧
              script.batches = #[batch] ∧ batch.text = "\nX" ∧
                (kind = .connect → batch.connectTarget = some value) ∧
                  (kind ∈ OutputTargets.kinds →
                    script.outputTargets.target? kind = some value)) ∧
          ∀ behind : String, (∀ c ∈ behind.toList.head?, c = '\n') →
            (∀ kind ∈ [.connect, .out, .error, .perfTrace],
              let line := kind.display ++ " " ++ quoted
              let start := (Position.startOf .script).advance line.toList
              build resolver options bindings (line ++ behind) =
                  Build.scriptBehind resolver options
                    (.ok (.goOn, (Draft.start options bindings).record kind value)) start
                    behind.toList ∧
                ∀ script, build resolver options bindings (line ++ behind) = .ok script →
                  script.RecordsBehind resolver bindings start behind.toList kind value 0) ∧
              (0 < options.maxIncludeDepth →
                let line := ":r " ++ quoted
                build resolver options bindings (line ++ behind) =
                  Build.scriptBehind resolver options
                    (match resolver value .script with
                    | .error missing =>
                        .error
                          { cause := .includeNotFound value missing.message
                            position := .startOf .script }
                    | .ok file => do
                        let tokens ← tokenize (.included file.path) file.text
                        Build.walk (Build.expansion resolver options.maxIncludeDepth [file.path])
                          tokens (Draft.start options bindings))
                    ((Position.startOf .script).advance line.toList) behind.toList)) := by
  intro quoted
  have quoted_line := Command.one_line_inQuotes one_line
  have trimmed := Command.trimmed_inQuotes value.toList
  have argument {command : Command} (arguments_eq : command.arguments = quoted)
      (value_ne : value ≠ "") (missing : String) :
      command.requiredArgument bindings missing = .ok value := by
    rw [Command.requiredArgument_inQuotes bindings missing arguments_eq plain
      (by simpa using value_ne), String.ofList_toList]
  have targets (value_ne : value ≠ "") {kind : CommandKind}
      (recorded : kind ∈ [.connect, .out, .error, .perfTrace]) (behind : String)
      (ends : ∀ c ∈ behind.toList.head?, c = '\n') :
      build resolver options bindings (kind.display ++ " " ++ quoted ++ behind) =
        Build.scriptBehind resolver options
          (.ok (.goOn, (Draft.start options bindings).record kind value))
          ((Position.startOf .script).advance (kind.display ++ " " ++ quoted).toList)
          behind.toList := by
    have line_eq : (kind.display ++ " " ++ quoted).toList =
        Lexeme.wordLine kind (Command.inQuotes value.toList) := by
      simp [Lexeme.wordLine, quoted]
    have kind_ne : kind ≠ .onError := by
      rintro rfl
      simp at recorded
    rw [line_eq]
    exact Build.build_of_wordLine resolver options bindings kind_ne quoted_line trimmed ends
      (by rw [String.toList_append, line_eq]) fun argumentsStart =>
        Build.perform_of_target _ _ recorded (argument rfl value_ne)
  refine ⟨fun name is_name => ?_, fun value_ne => ⟨fun kind recorded => ?_,
    fun behind ends => ⟨fun kind recorded => ?_, fun nests => ?_⟩⟩⟩
  · refine Build.build_of_assignment resolver options bindings is_name one_line plain ?_
    simp [Lexeme.wordLine, CommandKind.display, CommandKind.name, quoted]
  · rw [targets value_ne recorded "\nX" (by simp)]
    exact Build.scriptBehind_of_record resolver options (Draft.start options bindings) kind value _
      fun _ => rfl
  · refine ⟨targets value_ne recorded behind ends, fun script built => ?_⟩
    rw [targets value_ne recorded behind ends] at built
    exact Build.recordsBehind_of_scriptBehind built
  · have line_eq : (":r " ++ quoted).toList =
        Lexeme.wordLine .includeFile (Command.inQuotes value.toList) := by
      simp [Lexeme.wordLine, CommandKind.display, CommandKind.name, quoted]
    dsimp only
    rw [line_eq]
    exact Build.build_of_wordLine resolver options bindings (by decide) quoted_line trimmed ends
      (by rw [String.toList_append, line_eq]) fun argumentsStart =>
        Build.perform_of_include _ resolver rfl nests (argument rfl value_ne)

/-- Blanks and quotes at the ends of an argument are kept. -/
theorem arguments_of_build_with_blanks_and_quotes :
    let value := " \"a\" "
    let quoted := "\" \"\"a\"\" \""
    let built := build (Resolver.ofFiles [(value, "b")]) {} .empty
    (∃ script, built (":setvar v " ++ quoted ++ "\nX$(v)") = .ok script ∧
        script.batches.toList.map Batch.text = ["\nX" ++ value]) ∧
      (∃ script batch, built (":connect " ++ quoted ++ "\nX") = .ok script ∧
        script.batches = #[batch] ∧ batch.connectTarget = some value) ∧
        (∃ script, built (":out " ++ quoted ++ "\nX") = .ok script ∧
          script.outputTargets.out = some value) ∧
          (built (":r " ++ quoted)).toOption.map
            (fun script => script.batches.toList.map Batch.text) = some ["b"] := by
  intro value quoted built
  have plain : Variable.Plain value.toList := by
    unfold Variable.Plain
    decide +kernel
  have quoted_eq : String.ofList (Command.inQuotes value.toList) = quoted := by decide +kernel
  have arguments := arguments_of_build (Resolver.ofFiles [(value, "b")]) {} .empty
    (by decide +kernel) plain
  rw [quoted_eq] at arguments
  obtain ⟨assigned, recorded⟩ := arguments
  obtain ⟨targets, behind⟩ := recorded (by decide)
  obtain ⟨-, included⟩ := behind "" (by simp)
  refine ⟨assigned "v" (by decide +kernel), ?_, ?_, ?_⟩
  · obtain ⟨script, batch, made, batches_eq, -, connected, -⟩ := targets .connect (by simp)
    exact ⟨script, batch, made, batches_eq, connected rfl⟩
  · obtain ⟨script, batch, made, -, -, -, outputs⟩ := targets .out (by simp)
    exact ⟨script, made, outputs (by simp [OutputTargets.kinds])⟩
  · have include_eq : built (":r " ++ quoted ++ "") = _ := included (by decide)
    rw [String.append_empty] at include_eq
    rw [include_eq]
    decide +kernel

end SqlScript
