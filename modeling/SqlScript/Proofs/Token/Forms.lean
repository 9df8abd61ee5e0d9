import SqlScript.Proofs.Token.Delimiters
import SqlScript.Proofs.Token.Directives

/-!
# The written forms of tokens

Every token is written as its kind demands (`Lexeme.writtenAs_of_scan?`).  Ordinary text stops
before every opening, so an opening that a lexing meets is refused exactly if no complete token
begins there (`Lexing.tokens_have_their_forms`).
-/

namespace SqlScript

/-- A comment that takes the rest of its line. -/
structure Lexeme.LineComment (written after : List Char) : Prop where
  opens : ['-', '-'] <+: written
  one_line : '\n' ∉ written
  ends : ∀ c ∈ after.head?, c = '\n'

/-- How a token of each kind is written in front of the text `after`. -/
def TokenKind.WrittenAs (written after : List Char) : TokenKind → Prop
  | .text => '\n' ∉ written.dropLast
  | .quotedString => Lexeme.Quotation '\x27' '\x27' written after
  | .quotedIdentifier =>
      Lexeme.Quotation '[' ']' written after ∨ Lexeme.Quotation '"' '"' written after
  | .lineComment => Lexeme.LineComment written after
  | .blockComment => Lexeme.NestedComment written
  | .separator repeatCount =>
      ∃ digits, SeparatorLine (written ++ after) written digits ∧ RepeatCount digits repeatCount
  | .command line => CommandLine (written ++ after) written line.kind
  | .reference name =>
      Variable.isName name.toList = true ∧ written = '$' :: '(' :: (name.toList ++ [')'])

/-- The text begins with a complete token of the kind. -/
def TokenKind.Leads (kind : TokenKind) (source : List Char) : Prop :=
  ∃ written after, written ++ after = source ∧ kind.WrittenAs written after

namespace Lexeme

theorem reference_of_referenceFrom {behind : List Char} {lexeme : Lexeme}
    (found : referenceFrom behind = .ok lexeme) :
    ∃ name, lexeme.form = .reference name ∧ Variable.isName name = true ∧
      lexeme.text = '$' :: '(' :: (name ++ [')']) := by
  unfold referenceFrom at found
  dsimp only at found
  split at found
  · split at found <;> cases found
    rename_i is_name
    exact ⟨_, rfl, is_name, rfl⟩
  · cases found

theorem isInside_of_isName {name : List Char} (is_name : Variable.isName name = true) :
    ∀ c ∈ name, (c != ')' && isInLine c) = true := by
  intro c member
  have part := Variable.isNamePart_of_isName is_name c member
  simp only [isInLine, Bool.and_eq_true, bne_iff_ne]
  constructor <;> rintro rfl <;> exact absurd part (by decide)

theorem referenceFrom_of_isName {name : List Char} (is_name : Variable.isName name = true)
    (after : List Char) :
    referenceFrom (name ++ ')' :: after) =
      .ok
        { form := .reference name, text := '$' :: '(' :: (name ++ [')']), rest := after
          freshLine := false } := by
  have run : Text.Run (fun c => c != ')' && isInLine c) (name ++ ')' :: after) name
      (')' :: after) := ⟨rfl, isInside_of_isName is_name, by simp⟩
  unfold referenceFrom
  dsimp only
  rw [run.takeWhile_eq, run.dropWhile_eq]
  simp [is_name]

theorem reference_iff {behind : List Char} :
    (∃ name, (TokenKind.reference name).Leads ('$' :: '(' :: behind)) ↔
      ∃ lexeme, referenceFrom behind = .ok lexeme := by
  constructor
  · rintro ⟨name, _, after, source_eq, is_name, rfl⟩
    obtain rfl : name.toList ++ ')' :: after = behind := by simpa using source_eq
    exact ⟨_, referenceFrom_of_isName is_name after⟩
  · rintro ⟨lexeme, found⟩
    obtain ⟨name, -, is_name, text_eq⟩ := reference_of_referenceFrom found
    refine ⟨String.ofList name, lexeme.text, lexeme.rest, (splits_of_referenceFrom found).1, ?_⟩
    simpa [TokenKind.WrittenAs] using ⟨is_name, text_eq⟩

/-- An opening whose token is never completed. -/
def Unfinished (source : List Char) : ParseCause → Prop
  | .unterminatedString => ['\x27'] <+: source ∧ ¬TokenKind.quotedString.Leads source
  | .unterminatedIdentifier =>
      (['['] <+: source ∨ ['"'] <+: source) ∧ ¬TokenKind.quotedIdentifier.Leads source
  | .unterminatedComment => ['/', '*'] <+: source ∧ ¬TokenKind.blockComment.Leads source
  | .malformedReference =>
      ['$', '('] <+: source ∧ ∀ name, ¬(TokenKind.reference name).Leads source
  | _ => False

theorem quotation_of_closed {opener close : Char} {form : Form} {unclosed : ParseCause}
    {behind : List Char} {lexeme : Lexeme}
    (found : closed form [opener] unclosed (splitClosing close behind) = .ok lexeme) :
    Quotation opener close lexeme.text lexeme.rest := by
  cases parts_eq : splitClosing close behind with
  | none => simp [closed, parts_eq] at found
  | some parts =>
      obtain ⟨body, quoted, front_eq, ends⟩ := quotedBody_of_splitClosing parts_eq
      simp only [closed, parts_eq, Except.ok.injEq] at found
      subst found
      exact ⟨⟨body, quoted, by simp [front_eq]⟩, ends⟩

theorem closed_eq_error_iff {form : Form} {opener : List Char} {unclosed : ParseCause}
    {parts? : Option (List Char × List Char)} :
    closed form opener unclosed parts? = .error unclosed ↔ ¬∃ parts, parts? = some parts := by
  cases parts? <;> simp [closed]

theorem bracketed_iff {behind : List Char} :
    TokenKind.quotedIdentifier.Leads ('[' :: behind) ↔
      ∃ parts, splitClosing ']' behind = some parts := by
  rw [← @quotation_iff '[']
  constructor
  · rintro ⟨written, after, source_eq, bracketed | quoted⟩
    · exact ⟨written, after, source_eq, bracketed⟩
    · exact absurd (quoted.opener_eq source_eq) (by decide)
  · rintro ⟨written, after, source_eq, bracketed⟩
    exact ⟨written, after, source_eq, .inl bracketed⟩

theorem doubleQuoted_iff {behind : List Char} :
    TokenKind.quotedIdentifier.Leads ('"' :: behind) ↔
      ∃ parts, splitClosing '"' behind = some parts := by
  rw [← @quotation_iff '"']
  constructor
  · rintro ⟨written, after, source_eq, bracketed | quoted⟩
    · exact absurd (bracketed.opener_eq source_eq) (by decide)
    · exact ⟨written, after, source_eq, quoted⟩
  · rintro ⟨written, after, source_eq, quoted⟩
    exact ⟨written, after, source_eq, .inr quoted⟩

theorem writtenAs_of_inLine {first : Char} {rest : List Char} {lexeme : Lexeme}
    (start : Position) (found : inLine first rest = .ok lexeme) :
    (lexeme.form.kindFrom start).WrittenAs lexeme.text lexeme.rest := by
  unfold inLine at found
  split at found
  · rw [form_of_closed found]
    exact quotation_of_closed found
  · rw [form_of_closed found]
    exact .inl (quotation_of_closed found)
  · rw [form_of_closed found]
    exact .inr (quotation_of_closed found)
  · rename_i behind
    cases found
    have run := Text.run_takeWhile isInLine ('-' :: behind)
    refine ⟨?_, ?_, fun c head => by simpa [isInLine] using run.boundary c head⟩
    · simp [List.takeWhile_cons, isInLine]
    · simp [not_mem_takeWhile_isInLine]
  · rename_i behind
    cases parts_eq : splitComment 0 behind with
    | none => simp [closed, parts_eq] at found
    | some parts =>
        simp only [closed, parts_eq, Except.ok.injEq] at found
        subst found
        refine ⟨List.prefix_append ['/', '*'] parts.1, ?_⟩
        simpa [depths, endsAtZero_cons] using depths_of_splitComment parts_eq
  · obtain ⟨name, form_eq, is_name, text_eq⟩ := reference_of_referenceFrom found
    rw [form_eq, text_eq]
    simpa [Form.kindFrom, TokenKind.WrittenAs] using is_name
  · cases found
    rw [form_of_textFrom]
    exact fun member => absurd ((textFrom_lineWise false first rest).inner member)
      (by simp [form_of_textFrom, Form.isOpaque])

theorem writtenAs_of_directive? {source : List Char} {lexeme : Lexeme} (start : Position)
    (found : directive? source = some (.ok lexeme)) :
    (lexeme.form.kindFrom start).WrittenAs lexeme.text lexeme.rest := by
  have append_eq := (splits_of_directive? found).1
  cases directive_of_directive? found with
  | separator line count => exact ⟨_, append_eq ▸ line, count⟩
  | command colon known =>
      have line := run_commandLine known
      rw [← colon.source_eq] at line
      have written : CommandLine source _ _ := ⟨⟨_, _, _, colon, known⟩, _, line⟩
      rw [← append_eq] at written
      exact written

/-- Whatever a scan finds is written as tokens of its kind are. -/
theorem writtenAs_of_scan? {lineStart : Bool} {source : List Char} {lexeme : Lexeme}
    (start : Position) (scanned : scan? lineStart source = some (.ok lexeme)) :
    (lexeme.form.kindFrom start).WrittenAs lexeme.text lexeme.rest := by
  generalize found_eq : Except.ok lexeme = found at scanned
  cases scans_of_scan? scanned with
  | directive directive_eq => exact writtenAs_of_directive? start (found_eq ▸ directive_eq)
  | indent _ inside =>
      cases found_eq
      exact fun member => absurd (inside _ (List.dropLast_subset _ member)) (by decide)
  | inLine => exact writtenAs_of_inLine start found_eq.symm

theorem unfinished_of_inLine {first : Char} {rest : List Char} {cause : ParseCause}
    (found : inLine first rest = .error cause) : Unfinished (first :: rest) cause := by
  unfold inLine at found
  split at found
  · obtain rfl := cause_of_closed found
    exact ⟨by simp, mt quotation_iff.mp (closed_eq_error_iff.mp found)⟩
  · obtain rfl := cause_of_closed found
    exact ⟨.inl (by simp), mt bracketed_iff.mp (closed_eq_error_iff.mp found)⟩
  · obtain rfl := cause_of_closed found
    exact ⟨.inr (by simp), mt doubleQuoted_iff.mp (closed_eq_error_iff.mp found)⟩
  · contradiction
  · obtain rfl := cause_of_closed found
    exact ⟨by simp, mt nestedComment_iff.mp (closed_eq_error_iff.mp found)⟩
  · obtain rfl := cause_of_referenceFrom found
    refine ⟨by simp, fun name leads => ?_⟩
    obtain ⟨lexeme, complete⟩ := reference_iff.mp ⟨name, leads⟩
    rw [complete] at found
    contradiction
  · contradiction

theorem inLine_of_unfinished {first : Char} {rest : List Char} {cause : ParseCause}
    (unfinished : Unfinished (first :: rest) cause) : inLine first rest = .error cause := by
  cases cause with
  | unterminatedString =>
      obtain ⟨⟨behind, ⟨⟩⟩, incomplete⟩ := unfinished
      exact closed_eq_error_iff.mpr (mt quotation_iff.mpr incomplete)
  | unterminatedIdentifier =>
      obtain ⟨⟨behind, ⟨⟩⟩ | ⟨behind, ⟨⟩⟩, incomplete⟩ := unfinished
      · exact closed_eq_error_iff.mpr (mt bracketed_iff.mpr incomplete)
      · exact closed_eq_error_iff.mpr (mt doubleQuoted_iff.mpr incomplete)
  | unterminatedComment =>
      obtain ⟨⟨behind, ⟨⟩⟩, incomplete⟩ := unfinished
      exact closed_eq_error_iff.mpr (mt nestedComment_iff.mpr incomplete)
  | malformedReference =>
      obtain ⟨⟨behind, ⟨⟩⟩, incomplete⟩ := unfinished
      change referenceFrom behind = _
      cases found : referenceFrom behind with
      | error cause => rw [cause_of_referenceFrom found]
      | ok lexeme =>
          obtain ⟨name, leads⟩ := reference_iff.mpr ⟨lexeme, found⟩
          exact (incomplete name leads).elim
  | _ => exact unfinished.elim

theorem opensToken_of_unfinished {source : List Char} {cause : ParseCause}
    (unfinished : Unfinished source cause) : opensToken source = true := by
  cases cause with
  | unterminatedString | unterminatedComment | malformedReference =>
      obtain ⟨⟨_, rfl⟩, -⟩ := unfinished
      rfl
  | unterminatedIdentifier =>
      obtain ⟨⟨_, rfl⟩ | ⟨_, rfl⟩, -⟩ := unfinished <;> rfl
  | _ => exact unfinished.elim

theorem directive?_eq_none {first : Char} (rest : List Char) (not_colon : first ≠ ':')
    (not_word : first.toLower ≠ 'g') : directive? (first :: rest) = none := by
  cases rest with
  | nil => simp [directive?, separator?, not_colon]
  | cons second rest =>
      simp [directive?, separator?, Text.equalsIgnoringCase, Text.lowercase, not_colon, not_word]

/-- Neither a separator nor a command begins like another token. -/
theorem directive?_of_opensToken {source : List Char} (opens : opensToken source = true) :
    directive? (source.dropWhile isIndent) = none := by
  unfold opensToken at opens
  split at opens <;> first | contradiction | exact directive?_eq_none _ (by decide) (by decide)

theorem scan?_of_unfinished {source : List Char} {cause : ParseCause} (lineStart : Bool)
    (unfinished : Unfinished source cause) : scan? lineStart source = some (.error cause) := by
  have opens := opensToken_of_unfinished unfinished
  cases source with
  | nil => contradiction
  | cons first rest =>
      rw [← inLine_of_unfinished unfinished]
      exact scan?_of_scans (.inLine fun _ => directive?_of_opensToken opens)

theorem unfinished_of_scan? {lineStart : Bool} {source : List Char} {cause : ParseCause}
    (scanned : scan? lineStart source = some (.error cause))
    (not_directive : cause.isDirective = false) : Unfinished source cause := by
  generalize found_eq : Except.error cause = found at scanned
  cases scans_of_scan? scanned with
  | directive directive_eq =>
      subst found_eq
      cases directive_of_directive? directive_eq <;> contradiction
  | indent => cases found_eq
  | inLine => exact unfinished_of_inLine found_eq.symm

theorem not_opensToken_of_isIndent {c : Char} (rest : List Char) (indent : isIndent c = true) :
    opensToken (c :: rest) = false := by
  simp only [isIndent, Bool.or_eq_true, beq_iff_eq] at indent
  rcases indent with (rfl | rfl) | rfl <;> rfl

theorem not_opensToken_of_splitText {source inner outer : List Char}
    (parts : (splitText source).1 = inner ++ outer) (outer_ne : outer ≠ []) :
    opensToken (outer ++ (splitText source).2) = false := by
  fun_induction splitText source generalizing inner with
  | case1 => simp_all
  | case2 => simp_all
  | case3 rest not_opens =>
      cases inner with
      | nil =>
          obtain rfl : ['\n'] = outer := parts
          rfl
      | cons c inner => simp_all
  | case4 c rest not_opens c_ne ih =>
      simp only [consFront] at parts ⊢
      cases inner with
      | nil =>
          obtain rfl : c :: (splitText rest).1 = outer := parts
          rw [List.cons_append, splitText_append]
          exact Bool.eq_false_iff.mpr not_opens
      | cons d inner => exact ih (List.cons.inj parts).2

/-- Text goes up to the next opening at most. -/
theorem not_opensToken_of_text {lineStart : Bool} {source inner outer : List Char}
    {lexeme : Lexeme} (scanned : scan? lineStart source = some (.ok lexeme))
    (form_eq : lexeme.form = .text) (text_eq : lexeme.text = inner ++ outer)
    (inner_ne : inner ≠ []) (outer_ne : outer ≠ []) :
    opensToken (outer ++ lexeme.rest) = false := by
  generalize found_eq : Except.ok lexeme = found at scanned
  cases scans_of_scan? scanned with
  | directive directive_eq =>
      subst found_eq
      cases directive_of_directive? directive_eq <;> cases form_eq
  | indent _ inside =>
      cases found_eq
      obtain rfl : _ = inner ++ outer := text_eq
      cases outer with
      | nil => contradiction
      | cons c outer => exact not_opensToken_of_isIndent _ (inside c (by simp))
  | @inLine _ first rest =>
      have begins := begins_inLine first rest
      generalize inLine first rest = result at begins found_eq
      cases begins with
      | closed opaque_eq =>
          rw [form_of_closed found_eq.symm] at form_eq
          simp [form_eq, Form.isOpaque] at opaque_eq
      | lineComment =>
          cases found_eq
          cases form_eq
      | reference =>
          obtain ⟨name, reference_eq⟩ := form_of_referenceFrom found_eq.symm
          simp [form_eq] at reference_eq
      | text =>
          cases found_eq
          unfold textFrom at text_eq ⊢
          split at text_eq
          · have lengths := congrArg List.length text_eq
            have inner_pos := List.length_pos_iff.mpr inner_ne
            have outer_pos := List.length_pos_iff.mpr outer_ne
            simp only [List.length_cons, List.length_nil, List.length_append] at lengths
            omega
          · rename_i first_ne
            cases inner with
            | nil => contradiction
            | cons c inner =>
                simp only [first_ne, if_false]
                exact not_opensToken_of_splitText (List.cons.inj text_eq).2 outer_ne

end Lexeme

namespace Lexing

open Lexeme (Unfinished scan?)

variable {lineStart : Bool} {source before behind : List Char} {start : Position}

/-- The place behind `place` lies inside a token that is not ordinary text. -/
def Covered (lexing : Lexing) (place : List Char) : Prop :=
  ∃ before token inner outer, lexing.Emits before token ∧ token.kind ≠ .text ∧
    token.text.toList = inner ++ outer ∧ inner ≠ [] ∧ outer ≠ [] ∧ place = before ++ inner

theorem covered_cons {lexing : Lexing} {place : List Char} (first : Token)
    (covered : lexing.Covered place) :
    (cons first lexing).Covered (first.text.toList ++ place) := by
  obtain ⟨before, token, inner, outer, emits, kind_ne, parts, inner_ne, outer_ne, rfl⟩ := covered
  exact ⟨first.text.toList ++ before, token, inner, outer,
    emits_cons.mpr (.inr ⟨before, rfl, emits⟩), kind_ne, parts, inner_ne, outer_ne, by simp⟩

theorem not_covered_text (lexing : Lexing) : ¬lexing.Covered lexing.text := by
  rintro ⟨_, token, inner, outer, ⟨earlier, later, tokens_eq, rfl⟩, -, parts, -, outer_ne, whole⟩
  have lengths := congrArg List.length whole
  have outer_pos := List.length_pos_iff.mpr outer_ne
  simp only [text, tokens_eq, Token.textOf_append, Token.textOf_cons, parts,
    List.length_append] at lengths
  omega

/-- An opening without its end stops the lexing wherever it is met. -/
theorem fails_at_unfinished {cause : ParseCause}
    (lexed : before <+: (run start lineStart (before ++ behind)).text)
    (uncovered : ¬(run start lineStart (before ++ behind)).Covered before)
    (unfinished : Unfinished behind cause) :
    (run start lineStart (before ++ behind)).FailsAt before
      { cause, position := start.advance before } := by
  generalize source_eq : before ++ behind = source at *
  induction start, lineStart, source using run_induction generalizing before with
  | finished start lineStart source scanned =>
      obtain rfl := Lexeme.eq_nil_of_scan? scanned
      rw [(List.append_eq_nil_iff.mp source_eq).2] at unfinished
      exact absurd (Lexeme.opensToken_of_unfinished unfinished) (by decide)
  | failed start lineStart source other scanned =>
      rw [run_of_failed start scanned] at *
      obtain rfl : before = [] := List.prefix_nil.mp lexed
      obtain rfl : behind = source := source_eq
      cases scanned.symm.trans (Lexeme.scan?_of_unfinished lineStart unfinished)
      exact ⟨rfl, rfl⟩
  | token start lineStart source lexeme scanned ih =>
      rw [run_of_lexeme start scanned] at *
      by_cases before_eq : before = []
      · subst before_eq
        obtain rfl : behind = source := source_eq
        cases scanned.symm.trans (Lexeme.scan?_of_unfinished lineStart unfinished)
      · have append_eq := (Lexeme.append_of_scan? scanned).1.trans source_eq.symm
        obtain ⟨later, rfl, rest_eq⟩ : ∃ later, before = lexeme.text ++ later ∧
            later ++ behind = lexeme.rest := by
          rcases List.append_eq_append_iff.mp append_eq with
            ⟨later, before_eq, rest_eq⟩ | ⟨outer, text_eq, behind_eq⟩
          · exact ⟨later, before_eq, rest_eq.symm⟩
          · by_cases outer_eq : outer = []
            · subst outer_eq
              exact ⟨[], by simpa using text_eq.symm, by simpa using behind_eq⟩
            · by_cases form_eq : lexeme.form = .text
              · have not_opens :=
                  Lexeme.not_opensToken_of_text scanned form_eq text_eq before_eq outer_eq
                rw [← behind_eq, Lexeme.opensToken_of_unfinished unfinished] at not_opens
                contradiction
              · refine (uncovered ⟨[], _, before, outer, emits_cons.mpr (.inl ⟨rfl, rfl⟩), ?_,
                  by simpa using text_eq, before_eq, outer_eq, rfl⟩).elim
                cases form : lexeme.form <;> simp_all [Lexeme.tokenFrom, Form.kindFrom]
        have lexed_later : later <+: (run (start.advance lexeme.text) lexeme.freshLine
            lexeme.rest).text := by
          rw [text_cons, Lexeme.text_tokenFrom] at lexed
          exact (List.prefix_append_right_inj _).mp lexed
        have uncovered_later : ¬(run (start.advance lexeme.text) lexeme.freshLine
            lexeme.rest).Covered later := by
          intro covered
          have whole := covered_cons (lexeme.tokenFrom start) covered
          rw [Lexeme.text_tokenFrom] at whole
          exact uncovered whole
        rw [Position.advance_append]
        exact failsAt_cons.mpr
          ⟨later, by rw [Lexeme.text_tokenFrom], ih rest_eq lexed_later uncovered_later⟩

/-- The place between `before` and `behind` is reached before the first error of the text, and not
inside a string, a quoted name, a comment, a reference, a separator or a command. -/
structure Meets (file : SourceFile) (text : String) (before behind : List Char) : Prop where
  split : text.toList = before ++ behind
  lexed : before <+: (ofText file text).text
  uncovered : ¬(ofText file text).Covered before

variable {file : SourceFile} {text : String}

theorem writtenAs_of_emits {token : Token} (emits : (ofText file text).Emits before token) :
    ∃ after, text.toList = before ++ (token.text.toList ++ after) ∧
      token.kind.WrittenAs token.text.toList after := by
  obtain ⟨fresh, behind, lexeme, split, scanned, rfl⟩ := scan?_of_emits emits
  refine ⟨lexeme.rest, ?_, ?_⟩
  · rw [Lexeme.text_tokenFrom, (Lexeme.append_of_scan? scanned).1, split]
  · rw [Lexeme.text_tokenFrom]
    exact Lexeme.writtenAs_of_scan? _ scanned

/-- An error that concerns neither a separator nor a command is met at an opening without its
end. -/
theorem failsAt_iff_unfinished {cause : ParseCause} (not_directive : cause.isDirective = false) :
    (ofText file text).FailsAt before
        { cause, position := (Position.startOf file).advance before } ↔
      ∃ behind, Meets file text before behind ∧ Unfinished behind cause := by
  constructor
  · intro fails
    obtain ⟨fresh, behind, split, scanned⟩ := scan?_of_failsAt fails
    refine ⟨behind, ⟨split, fails.1 ▸ List.prefix_refl _, ?_⟩,
      Lexeme.unfinished_of_scan? scanned not_directive⟩
    rw [← fails.1]
    exact not_covered_text _
  · rintro ⟨behind, ⟨split, lexed, uncovered⟩, unfinished⟩
    rw [ofText, split] at *
    exact fails_at_unfinished lexed uncovered unfinished

/-- Every token is written as its kind demands.  The lexing of a text fails for the lack of an end
exactly where an opening is met with which no complete token begins, and for a malformed reference
exactly where the opening of one is met without a valid name and its end. -/
theorem tokens_have_their_forms (file : SourceFile) (text : String) (before : List Char) :
    let lexing := ofText file text
    let here := (Position.startOf file).advance before
    (∀ token, lexing.Emits before token →
        ∃ after, text.toList = before ++ (token.text.toList ++ after) ∧
          token.kind.WrittenAs token.text.toList after) ∧
      (lexing.FailsAt before { cause := .unterminatedString, position := here } ↔
        ∃ behind, Meets file text before behind ∧ ['\x27'] <+: behind ∧
          ¬TokenKind.quotedString.Leads behind) ∧
      (lexing.FailsAt before { cause := .unterminatedIdentifier, position := here } ↔
        ∃ behind, Meets file text before behind ∧ (['['] <+: behind ∨ ['"'] <+: behind) ∧
          ¬TokenKind.quotedIdentifier.Leads behind) ∧
      (lexing.FailsAt before { cause := .unterminatedComment, position := here } ↔
        ∃ behind, Meets file text before behind ∧ ['/', '*'] <+: behind ∧
          ¬TokenKind.blockComment.Leads behind) ∧
      (lexing.FailsAt before { cause := .malformedReference, position := here } ↔
        ∃ behind, Meets file text before behind ∧ ['$', '('] <+: behind ∧
          ∀ name, ¬(TokenKind.reference name).Leads behind) ∧
      ∀ failure, lexing.FailsAt before failure → failure.position = here :=
  ⟨fun _ => writtenAs_of_emits, failsAt_iff_unfinished rfl, failsAt_iff_unfinished rfl,
    failsAt_iff_unfinished rfl, failsAt_iff_unfinished rfl, fun _ => position_of_failsAt⟩

end Lexing
end SqlScript
