import Mathlib.Data.List.Infix
import SqlScript.Proofs.Build.Moments
import SqlScript.Proofs.Build.Pieces
import SqlScript.Proofs.Build.Targets
import SqlScript.Proofs.Token.Forms
import SqlScript.Proofs.Variable.Substitution

/-!
# Prose

Prose is text without quotations, comments, separators and commands.  It is made of lines of text
and references, so building a script of prose is the same as substituting the variables in it
(`substitution_of_build`).
-/

namespace SqlScript

/-- Neither a quotation nor a comment begins in the text, and no line of it is a separator or a
command.  `lineStart` says whether a line begins with the text. -/
structure Prose (text : List Char) (lineStart : Bool := true) : Prop where
  unquoted : ∀ opener ∈ ["\x27", "[", "\"", "--", "/*"], ¬opener.toList <:+: text
  undirected : ∀ line indent behind, text = line ++ (indent ++ behind) →
    (line = [] ∧ lineStart = true ∨ line.getLast? = some '\n') →
      (∀ c ∈ indent, Lexeme.isIndent c = true) →
        (∀ written digits, ¬SeparatorLine behind written digits) ∧
          ∀ command, ¬ColonLetter behind command

namespace Lexeme

theorem inLine_of_not_opensToken {first : Char} {rest : List Char}
    (not_opens : opensToken (first :: rest) = false) :
    inLine first rest = .ok (textFrom first rest) := by
  unfold inLine
  split <;> first | rfl | contradiction

theorem opensToken_of_reference {source : List Char} (opens : ['$', '('] <+: source) :
    opensToken source = true := by
  obtain ⟨behind, rfl⟩ := opens
  rfl

/-- No reference begins in a line of text, nor at its end. -/
theorem plainBefore_textFrom {first : Char} {rest : List Char}
    (not_opens : opensToken (first :: rest) = false) :
    Variable.PlainBefore (textFrom first rest).text (textFrom first rest).rest := by
  intro inner outer text_eq outer_ne reference
  have opens := opensToken_of_reference reference
  have scanned : scan? false (first :: rest) = some (.ok (textFrom first rest)) :=
    inLine_of_not_opensToken not_opens ▸ scan?_of_scans (.inLine (by simp))
  cases inner with
  | nil =>
      rw [← List.nil_append outer, ← text_eq, (append_of_scan? scanned).1, not_opens] at opens
      contradiction
  | cons c inner =>
      rw [not_opensToken_of_text scanned (form_of_textFrom first rest) text_eq (by simp)
        outer_ne] at opens
      contradiction

/-- A reference of a script is one to a name that is closed. -/
theorem closed_of_referenceFrom {behind : List Char} {lexeme : Lexeme}
    (found : referenceFrom behind = .ok lexeme) :
    ∃ name, lexeme.form = .reference name ∧ Variable.isName name = true ∧ ')' ∉ name ∧
      lexeme.text = '$' :: '(' :: (name ++ [')']) ∧ behind = name ++ ')' :: lexeme.rest := by
  obtain ⟨name, form_eq, is_name, text_eq⟩ := reference_of_referenceFrom found
  have append_eq := (splits_of_referenceFrom found).1
  refine ⟨name, form_eq, is_name, fun member => ?_, text_eq, ?_⟩
  · simpa using isInside_of_isName is_name ')' member
  · simpa [text_eq] using append_eq.symm

/-- What is no reference in a script offends in substitution. -/
theorem offends_of_referenceFrom (table : Variable.Table) {behind : List Char} {cause : ParseCause}
    (found : referenceFrom behind = .error cause) :
    cause = .malformedReference ∧ table.Offends behind .malformedReference := by
  refine ⟨cause_of_referenceFrom found, ?_⟩
  -- Here the name ends at the parenthesis, in a script already with its line; but no name has a
  -- line feed in it.
  by_cases close : ')' ∈ behind
  · obtain ⟨name, rest, rfl, closed⟩ := List.eq_append_cons_of_mem close
    refine .misnamed rfl closed (Bool.eq_false_iff.mpr fun is_name => ?_)
    rw [referenceFrom_of_isName is_name rest] at found
    contradiction
  · exact .unclosed close

end Lexeme

namespace Prose

variable {source : List Char} {lineStart : Bool}

theorem directive?_eq_none (prose : Prose source true) :
    Lexeme.directive? (source.dropWhile Lexeme.isIndent) = none := by
  have run := Text.run_takeWhile Lexeme.isIndent source
  obtain ⟨no_separator, no_command⟩ :=
    prose.undirected [] _ _ run.append_eq.symm (.inl ⟨rfl, rfl⟩) run.inside
  cases found : Lexeme.directive? (source.dropWhile Lexeme.isIndent) with
  | none => rfl
  | some directive =>
      rcases Lexeme.line_of_directive? found with ⟨written, digits, line⟩ | ⟨command, colon⟩
      · exact (no_separator written digits line).elim
      · exact (no_command command colon).elim

theorem scan?_eq {first : Char} {rest : List Char} (prose : Prose (first :: rest) lineStart) :
    Lexeme.scan? lineStart (first :: rest) = some (Lexeme.inLine first rest) :=
  Lexeme.scan?_of_scans (.inLine fun is_start => (is_start ▸ prose).directive?_eq_none)

/-- A text is prose if neither a separator nor a command stands anywhere in it. -/
theorem of_tails
    (unquoted : ∀ opener ∈ ["\x27", "[", "\"", "--", "/*"], ¬opener.toList <:+: source)
    (undirected : ∀ behind ∈ source.tails, Lexeme.directive? behind = none) :
    Prose source lineStart where
  unquoted := unquoted
  undirected line indent behind source_eq _ _ := by
    have none_found := undirected behind
      ((List.mem_tails _ _).mpr ⟨line ++ indent, by rw [source_eq, List.append_assoc]⟩)
    refine ⟨fun written digits separator => ?_, fun command colon => ?_⟩
    · rw [Lexeme.directive?_of_separatorLine separator] at none_found
      rcases Lexeme.separator?_of_line separator with ⟨_, _, -, -, found⟩ | ⟨-, found⟩ <;>
        simp [found] at none_found
    · simp [Lexeme.directive?_of_colonLetter colon] at none_found

/-- Only references are opened in prose. -/
theorem reference_of_opensToken (prose : Prose source lineStart)
    (opens : Lexeme.opensToken source = true) : ∃ behind, source = '$' :: '(' :: behind := by
  have unquoted (opener : String) (member : opener ∈ ["\x27", "[", "\"", "--", "/*"])
      (behind : List Char) : source ≠ opener.toList ++ behind := by
    rintro rfl
    exact prose.unquoted opener member (List.prefix_append _ _).isInfix
  unfold Lexeme.opensToken at opens
  split at opens
  · rename_i behind
    exact (unquoted "\x27" (by simp) behind rfl).elim
  · rename_i behind
    exact (unquoted "[" (by simp) behind rfl).elim
  · rename_i behind
    exact (unquoted "\"" (by simp) behind rfl).elim
  · rename_i behind
    exact (unquoted "--" (by simp) behind rfl).elim
  · rename_i behind
    exact (unquoted "/*" (by simp) behind rfl).elim
  · exact ⟨_, rfl⟩
  · contradiction

/-- What a scan of prose finds. -/
inductive Finds : (source : List Char) → Except ParseCause Lexeme → Prop
  | reference {behind : List Char} :
      Finds ('$' :: '(' :: behind) (Lexeme.referenceFrom behind)
  | text {first : Char} {rest : List Char} : Lexeme.opensToken (first :: rest) = false →
      Finds (first :: rest) (.ok (Lexeme.textFrom first rest))

theorem finds_of_scan? {found : Except ParseCause Lexeme} (prose : Prose source lineStart)
    (scanned : Lexeme.scan? lineStart source = some found) : Finds source found := by
  cases source with
  | nil => contradiction
  | cons first rest =>
      cases prose.scan?_eq.symm.trans scanned
      cases opens : Lexeme.opensToken (first :: rest) with
      | false =>
          rw [Lexeme.inLine_of_not_opensToken opens]
          exact .text opens
      | true =>
          obtain ⟨behind, source_eq⟩ := prose.reference_of_opensToken opens
          cases source_eq
          exact .reference

/-- Behind a token of prose stands prose. -/
theorem rest {lexeme : Lexeme} (prose : Prose source lineStart)
    (scanned : Lexeme.scan? lineStart source = some (.ok lexeme)) :
    Prose lexeme.rest lexeme.freshLine := by
  obtain ⟨append_eq, -⟩ := Lexeme.append_of_scan? scanned
  refine ⟨fun opener member inside => prose.unquoted opener member ?_, ?_⟩
  · exact append_eq ▸ inside.trans (List.suffix_append _ _).isInfix
  intro line indent behind rest_eq begins inside
  have source_eq : source = lexeme.text ++ (line ++ (indent ++ behind)) := by
    rw [← append_eq, rest_eq]
  rcases begins with ⟨rfl, is_fresh⟩ | feed
  -- A line begins behind the token if the token ends a line or is the indentation of one.
  · rcases (Lexeme.lineWise_of_scan? scanned).fresh is_fresh with feed | ⟨is_start, indented⟩
    · exact prose.undirected lexeme.text indent behind source_eq (.inr feed) inside
    · refine prose.undirected [] (lexeme.text ++ indent) behind (by simpa using source_eq)
        (.inl ⟨rfl, is_start⟩) (List.forall_mem_append.mpr ⟨indented, inside⟩)
  · refine prose.undirected (lexeme.text ++ line) indent behind (by simpa using source_eq)
      (.inr ?_) inside
    rw [List.getLast?_append, feed]
    rfl

/-- Neither separators nor commands are found in prose. -/
theorem not_isDirective (prose : Prose source lineStart) (start : Position) :
    ∀ token ∈ (Lexing.run start lineStart source).tokens, token.kind.isDirective = false := by
  induction start, lineStart, source using Lexing.run_induction with
  | finished start lineStart source scanned => simp [Lexing.run_of_finished start scanned]
  | failed start lineStart source cause scanned => simp [Lexing.run_of_failed start scanned]
  | token start lineStart source lexeme scanned ih =>
      rw [Lexing.run_of_lexeme start scanned]
      refine List.forall_mem_cons.mpr ⟨?_, ih (prose.rest scanned)⟩
      cases source with
      | nil => contradiction
      | cons first rest =>
          have found := Option.some.inj (prose.scan?_eq.symm.trans scanned)
          exact (Form.isDirective_kindFrom start lexeme.form).trans
            (Lexeme.not_isDirective_of_inLine found)

end Prose

namespace Variable.Table

/-- What a token of prose gives to a text. -/
def given (table : Table) (token : Token) : Except ParseError (List Char) :=
  match token.kind with
  | .reference name => (table.resolve name token.start).map String.toList
  | _ => .ok token.text.toList

/-- The text that tokens of prose make, unless one of them is refused or an error stands behind
them. -/
def fill (table : Table) (failure? : Option ParseError) :
    List Token → Except ParseError (List Char)
  | [] => match failure? with
    | none => .ok []
    | some failure => .error failure
  | token :: tokens => do
      let front ← table.given token
      (fill table failure? tokens).map (front ++ ·)

theorem given_of_text (table : Table) (start : Position) {lexeme : Lexeme}
    (form_eq : lexeme.form = .text) : table.given (lexeme.tokenFrom start) = .ok lexeme.text := by
  simp [given, Lexeme.tokenFrom, form_eq, Form.kindFrom]

theorem given_of_reference (table : Table) (start : Position) {lexeme : Lexeme} {name : List Char}
    (form_eq : lexeme.form = .reference name) :
    table.given (lexeme.tokenFrom start) =
      (table.resolve (String.ofList name) start).map String.toList := by
  rw [given, Lexeme.tokenFrom, form_eq]
  rfl

/-- Substitution in prose does what is done with its tokens. -/
theorem substitute_eq_fill (table : Table) (start : Position) {lineStart : Bool}
    {source : List Char} (prose : Prose source lineStart) :
    table.substitute start source =
      table.fill (Lexing.run start lineStart source).failure
        (Lexing.run start lineStart source).tokens := by
  induction start, lineStart, source using Lexing.run_induction with
  | finished start lineStart source scanned =>
      rw [Lexing.run_of_finished start scanned, Lexeme.eq_nil_of_scan? scanned, substitute]
      rfl
  | failed start lineStart source cause scanned =>
      rw [Lexing.run_of_failed start scanned]
      generalize found_eq : Except.error cause = found at scanned
      cases prose.finds_of_scan? scanned with
      | reference =>
          obtain ⟨rfl, offends⟩ := Lexeme.offends_of_referenceFrom table found_eq.symm
          exact substitute_of_offends offends
      | text => contradiction
  | token start lineStart source lexeme scanned ih =>
      have behind := ih (prose.rest scanned)
      rw [Lexing.run_of_lexeme start scanned, Lexing.cons, fill, ← behind]
      generalize found_eq : Except.ok lexeme = found at scanned
      cases prose.finds_of_scan? scanned with
      | reference =>
          obtain ⟨name, form_eq, is_name, closed, text_eq, rfl⟩ :=
            Lexeme.closed_of_referenceFrom found_eq.symm
          rw [table.given_of_reference start form_eq]
          by_cases refers : ∃ value, table.Refers name value
          · obtain ⟨value, refers⟩ := refers
            rw [substitute_of_refers closed refers, text_eq, resolve_of_refers refers]
            rfl
          · have undefined := not_exists.mp refers
            rw [substitute_of_offends (.undefined rfl closed is_name undefined),
              resolve_of_undefined is_name undefined]
            rfl
      | @text first rest not_opens =>
          cases found_eq
          rw [table.given_of_text start (Lexeme.form_of_textFrom first rest),
            ← (Lexeme.textFrom_splits first rest).1,
            substitute_append (Lexeme.plainBefore_textFrom not_opens)]
          rfl

theorem fill_error (table : Table) (failure : ParseError) (tokens : List Token)
    (text : List Char) : table.fill (some failure) tokens ≠ .ok text := by
  induction tokens generalizing text with
  | nil => exact nofun
  | cons token tokens ih =>
      intro filled
      obtain ⟨front, -, behind⟩ := ok_of_bind filled
      cases tail_eq : table.fill (some failure) tokens with
      | error other => simp [tail_eq, Except.map] at behind
      | ok tail => exact ih tail tail_eq

end Variable.Table

namespace Build

variable {tokens : List Token} {bindings : Variable.Table}

@[simp]
theorem bindings_start (options : BuildOptions) (bindings : Variable.Table) :
    (Draft.start options bindings).bindings = bindings := rfl

/-- Tokens of prose are refused in a draft where they are refused in a text, and for the same
reason. -/
theorem walk_eq_fill (expansion : Expansion) (draft : Draft)
    (plain : ∀ token ∈ tokens, token.kind.isDirective = false) :
    (walk expansion tokens draft).map (fun _ => ()) =
      (draft.bindings.fill none tokens).map fun _ => () := by
  induction tokens generalizing draft with
  | nil => rfl
  | cons token tokens ih =>
      obtain ⟨here, behind⟩ := List.forall_mem_cons.mp plain
      have later (front : List Char) (after : Draft) (same : after.bindings = draft.bindings) :
          (walk expansion tokens after).map (fun _ => ()) =
            ((draft.bindings.fill none tokens).map (front ++ ·)).map fun _ => () := by
        rw [ih after behind, same]
        cases draft.bindings.fill none tokens <;> rfl
      rw [walk_cons, Variable.Table.fill, Variable.Table.given, accept]
      cases kind_eq : token.kind with
      | separator | command => simp [kind_eq, TokenKind.isDirective] at here
      | reference name =>
          dsimp only
          cases draft.bindings.resolve name token.start with
          | error failure => rfl
          | ok value => exact later value.toList _ rfl
      | text | quotedString | quotedIdentifier | lineComment | blockComment =>
          exact later token.text.toList _ rfl

theorem contribution_of_given {token : Token} {text : List Char}
    (plain : token.kind.isDirective = false) (given : bindings.given token = .ok text) :
    token.contribution bindings = text := by
  unfold Variable.Table.given at given
  unfold Token.contribution
  cases kind_eq : token.kind with
  | separator | command => simp [kind_eq, TokenKind.isDirective] at plain
  | reference name =>
      rw [kind_eq] at given
      dsimp only at given
      cases resolved : bindings.resolve name token.start with
      | error failure => simp [resolved, Except.map] at given
      | ok value =>
          rw [resolved] at given
          cases given
          simp [Variable.Table.get?_of_resolve resolved]
  | text | quotedString | quotedIdentifier | lineComment | blockComment =>
      rw [kind_eq] at given
      exact Except.ok.inj given

/-- A token of prose adds its text to the pending batch. -/
theorem accept_of_given (expansion : Expansion) (draft : Draft) {token : Token} {text : List Char}
    (plain : token.kind.isDirective = false) (given : draft.bindings.given token = .ok text) :
    ∃ pending : Pending, accept expansion token draft = .ok (.goOn, { draft with pending }) ∧
      pending.text.toList = draft.pending.text.toList ++ text ∧
        (draft.pending.Tracked → pending.Tracked) := by
  have text_eq := contribution_of_given plain given
  cases kind_eq : token.kind with
  | separator | command => simp [kind_eq, TokenKind.isDirective] at plain
  | reference name =>
      rw [Variable.Table.given, kind_eq] at given
      dsimp only at given
      cases resolved : draft.bindings.resolve name token.start with
      | error failure => simp [resolved, Except.map] at given
      | ok value =>
          refine ⟨draft.pending.appendValue token.start token.stop value, ?_,
            text_eq ▸ draft.pending.toList_appendValue kind_eq resolved,
            fun tracked => Pending.tracked_contribute tracked _ _ _ _⟩
          rw [accept, kind_eq]
          dsimp only
          rw [resolved]
          rfl
  | text | quotedString | quotedIdentifier | lineComment | blockComment =>
      have is_literal : token.kind.isLiteral = true := by
        rw [kind_eq]
        rfl
      refine ⟨draft.pending.appendLiteral token.start token.stop token.text, ?_,
        text_eq ▸ draft.pending.toList_appendLiteral is_literal draft.bindings,
        fun tracked => Pending.tracked_contribute tracked _ _ _ _⟩
      rw [accept, kind_eq]

/-- Tokens of prose add their text to the pending batch. -/
theorem walk_of_filled (expansion : Expansion) (draft : Draft) {text : List Char}
    (plain : ∀ token ∈ tokens, token.kind.isDirective = false)
    (filled : draft.bindings.fill none tokens = .ok text) :
    ∃ pending : Pending, walk expansion tokens draft = .ok (.goOn, { draft with pending }) ∧
      pending.text.toList = draft.pending.text.toList ++ text ∧
        (draft.pending.Tracked → pending.Tracked) := by
  induction tokens generalizing draft text with
  | nil =>
      cases filled
      exact ⟨draft.pending, rfl, (List.append_nil _).symm, id⟩
  | cons token tokens ih =>
      obtain ⟨here, behind⟩ := List.forall_mem_cons.mp plain
      obtain ⟨front, given, rest⟩ := ok_of_bind filled
      cases tail_eq : draft.bindings.fill none tokens with
      | error failure => simp [tail_eq, Except.map] at rest
      | ok tail =>
          rw [tail_eq] at rest
          cases rest
          obtain ⟨pending, accepted, text_eq, tracked⟩ := accept_of_given expansion draft here given
          obtain ⟨last, walked, last_eq, last_tracked⟩ := ih { draft with pending } behind tail_eq
          refine ⟨last, ?_, ?_, last_tracked ∘ tracked⟩
          · rw [walk_cons, accepted]
            exact walked
          · rw [last_eq, text_eq, List.append_assoc]

/-- Tokens of prose behind a draft make one more batch with the pending text, if there is more than
blanks in it. -/
theorem script_of_filled (expansion : Expansion) {draft : Draft} {text : List Char}
    (plain : ∀ token ∈ tokens, token.kind.isDirective = false)
    (filled : draft.bindings.fill none tokens = .ok text) (tracked : draft.pending.Tracked)
    (not_blank : Text.isBlankText (draft.pending.text.toList ++ text) = false) :
    ∃ script batch, scriptOf (walk expansion tokens draft) = .ok script ∧
      script.batches = draft.batches.push batch ∧
        batch.text.toList = draft.pending.text.toList ++ text ∧
          batch.connectTarget = draft.connectTarget ∧
            script.outputTargets = draft.outputTargets := by
  obtain ⟨pending, walked, text_eq, keeps⟩ := walk_of_filled expansion draft plain filled
  have first_ne : pending.first ≠ none := by
    intro no_first
    rw [← text_eq, keeps tracked no_first] at not_blank
    contradiction
  rcases Draft.closed_of_close { draft with pending } 1 none with
    ⟨same, -⟩ | ⟨batch, pushed, is_closed, -, -, target_eq⟩
  · rcases Draft.pieces_close { draft with pending } 1 none with closed | ⟨-, no_first, -⟩
    · rw [Draft.pieces, same] at closed
      simp [Draft.pieces] at closed
    · exact (first_ne no_first).elim
  · have batch_text : batch.text.toList = draft.pending.text.toList ++ text := by
      rw [is_closed.text_eq, text_eq]
    refine ⟨_, batch, by rw [walked]; rfl, ?_, batch_text, target_eq,
      Draft.outputTargets_close _ 1 none⟩
    have last_not_blank : batch.isBlank = false := by rwa [Batch.isBlank, batch_text]
    rw [← Array.toList_inj, Draft.toList_finish, pushed]
    simp [last_not_blank]

theorem buildTokens_of_refused (resolver : Resolver) (options : BuildOptions)
    {failure : ParseError} (plain : ∀ token ∈ tokens, token.kind.isDirective = false)
    (refused : bindings.fill none tokens = .error failure) :
    buildTokens resolver options bindings tokens = .error failure := by
  have walked := walk_eq_fill (expansion resolver options.maxIncludeDepth [])
    (Draft.start options bindings) plain
  rw [buildTokens_eq]
  rw [bindings_start, refused] at walked
  cases result_eq : walk (expansion resolver options.maxIncludeDepth []) tokens
      (Draft.start options bindings) with
  | error other =>
      rw [result_eq] at walked
      cases walked
      rfl
  | ok _ =>
      rw [result_eq] at walked
      contradiction

theorem buildTokens_of_filled (resolver : Resolver) (options : BuildOptions) {text : List Char}
    (plain : ∀ token ∈ tokens, token.kind.isDirective = false)
    (filled : bindings.fill none tokens = .ok text) :
    ∃ script, buildTokens resolver options bindings tokens = .ok script ∧
      script.batches.toList.map (fun batch => batch.text.toList) =
        if Text.isBlankText text then [] else [text] := by
  rw [buildTokens_eq]
  have begins : (Draft.start options bindings).bindings.fill none tokens = .ok text := filled
  cases blank : Text.isBlankText text with
  | false =>
      obtain ⟨script, batch, made, pushed, text_eq, -, -⟩ := script_of_filled
        (expansion resolver options.maxIncludeDepth []) plain begins (fun _ => rfl) blank
      refine ⟨script, made, ?_⟩
      rw [pushed]
      simpa [Draft.start] using text_eq
  | true =>
      obtain ⟨pending, walked, text_eq, -⟩ := walk_of_filled
        (expansion resolver options.maxIncludeDepth []) (Draft.start options bindings) plain begins
      refine ⟨_, by rw [walked]; rfl, ?_⟩
      rw [Draft.toList_finish]
      rcases Draft.closed_of_close { Draft.start options bindings with pending } 1 none with
        ⟨same, -⟩ | ⟨batch, pushed, is_closed, -⟩
      · rw [same]
        rfl
      · have batch_blank : batch.isBlank = true := by
          rw [Batch.isBlank, is_closed.text_eq, text_eq]
          exact blank
        rw [pushed]
        simp [Draft.start, batch_blank]

end Build

/-- Building a script of prose is substituting its variables: the one succeeds exactly if the other
does, the script has the result as its only batch unless it is blank, and where the text can be
turned into tokens both fail alike. -/
theorem substitution_of_build (resolver : Resolver) (options : BuildOptions)
    (bindings : Variable.Table) {text : String} (prose : Prose text.toList) :
    let built := build resolver options bindings text
    let substituted := bindings.substitute (Position.startOf .script) text.toList
    ((∃ script, built = .ok script) ↔ ∃ result, substituted = .ok result) ∧
      (∀ script result, built = .ok script → substituted = .ok result →
        script.batches.toList.map (fun batch => batch.text.toList) =
          if Text.isBlankText result then [] else [result]) ∧
      ∀ tokens failure, tokenize .script text = .ok tokens → substituted = .error failure →
        built = .error failure := by
  intro built substituted
  have plain := prose.not_isDirective (Position.startOf .script)
  have substituted_eq : substituted = bindings.fill (Lexing.ofText .script text).failure
      (Lexing.ofText .script text).tokens := bindings.substitute_eq_fill _ prose
  have built_eq : built =
      (Lexing.ofText .script text).result >>= buildTokens resolver options bindings := rfl
  rw [← Lexing.ofText] at plain
  simp only [tokenize]
  generalize Lexing.ofText .script text = lexing at *
  obtain ⟨tokens, _ | failure⟩ := lexing
  · rw [show ({ tokens, failure := none } : Lexing).result = .ok tokens from rfl] at built_eq ⊢
    cases filled : bindings.fill none tokens with
    | error failure =>
        rw [filled] at substituted_eq
        have refused : built = .error failure :=
          built_eq.trans (Build.buildTokens_of_refused resolver options plain filled)
        simp [substituted_eq, refused]
    | ok result =>
        rw [filled] at substituted_eq
        obtain ⟨script, script_eq, texts_eq⟩ :=
          Build.buildTokens_of_filled resolver options plain filled
        simp [substituted_eq, built_eq.trans script_eq, texts_eq]
  · have unlexed : built = .error failure := built_eq
    have refused (result : List Char) : substituted ≠ .ok result :=
      substituted_eq ▸ bindings.fill_error failure tokens result
    simp [unlexed, refused, Lexing.result]

/-- A value may hold what would be a reference, a separator or a quotation in the script. -/
theorem substitution_of_build_with_directive_in_value :
    let bindings := Variable.Table.ofList [("v", "\nGO\n$(w)\x27")]
    let text := "x$(V)\n GO$(v)"
    let result := "x\nGO\n$(w)\x27\n GO\nGO\n$(w)\x27"
    ∃ script, Prose text.toList ∧
      bindings.substitute (Position.startOf .script) text.toList = .ok result.toList ∧
        build (Resolver.ofFiles []) {} bindings text = .ok script ∧
          script.batches.toList.map (fun batch => batch.text.toList) = [result.toList] := by
  intro bindings text result
  have prose : Prose text.toList := .of_tails (by decide +kernel) (by decide +kernel)
  have substituted : bindings.substitute (Position.startOf .script) text.toList =
      .ok result.toList := by
    decide +kernel +zetaReduce
  obtain ⟨succeeds, texts, -⟩ := substitution_of_build (Resolver.ofFiles []) {} bindings prose
  obtain ⟨script, built⟩ := succeeds.mpr ⟨_, substituted⟩
  have texts_eq := texts script result.toList built substituted
  rw [if_neg (by decide +kernel)] at texts_eq
  exact ⟨script, prose, substituted, built, texts_eq⟩

end SqlScript
