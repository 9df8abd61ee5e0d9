import SqlScript.Proofs.Token.Grammar

/-!
# What a scan can find

A scan finds a separator or a command, the indentation before one, or the token that begins inside
a line (`Lexeme.scan?_eq_some_iff`).  Whatever it finds, a line feed stands at the end of a text
token or inside a quoted or commented one (`Lexeme.lineWise_of_scan?`).
-/

namespace SqlScript

namespace Form

/-- Whether such a token may contain line feeds that begin no line of their own. -/
def isOpaque : Form → Bool
  | quotedString | quotedIdentifier | blockComment => true
  | _ => false

/-- Whether such a token stands only where a line begins. -/
def isDirective : Form → Bool
  | separator _ | command _ _ _ => true
  | _ => false

theorem not_isDirective_of_isOpaque {form : Form} (opaque_eq : form.isOpaque = true) :
    form.isDirective = false := by
  cases form <;> first | rfl | contradiction

end Form

/-- Whether the error is that of a separator or a command. -/
def ParseCause.isDirective : ParseCause → Bool
  | invalidRepeatCount _ | unknownCommand _ => true
  | _ => false

namespace Lexeme

/-- The ways in which a scan comes to its result. -/
inductive Scans : (lineStart : Bool) → List Char → Except ParseCause Lexeme → Prop
  | directive {source : List Char} {found : Except ParseCause Lexeme} :
      directive? source = some found → Scans true source found
  | indent {indent body : List Char} {found : Except ParseCause Lexeme} :
      indent ≠ [] → (∀ c ∈ indent, isIndent c = true) → directive? body = some found →
        Scans true (indent ++ body)
          (.ok { form := .text, text := indent, rest := body, freshLine := true })
  /-- Neither may begin here, or none does. -/
  | inLine {lineStart : Bool} {first : Char} {rest : List Char} :
      (lineStart = true → directive? ((first :: rest).dropWhile isIndent) = none) →
        Scans lineStart (first :: rest) (inLine first rest)

theorem directive?_eq_none_of_indent {c : Char} (rest : List Char)
    (indent : isIndent c = true) : directive? (c :: rest) = none := by
  simp only [isIndent, Bool.or_eq_true, beq_iff_eq] at indent
  cases rest with
  | nil => rcases indent with (rfl | rfl) | rfl <;> rfl
  | cons o rest =>
      rcases indent with (rfl | rfl) | rfl <;>
        simp [directive?, separator?, Text.equalsIgnoringCase, Text.lowercase]

/-- A separator or a command is never preceded by more indentation than its own line's. -/
theorem run_of_directive? (indent : List Char) {body : List Char}
    {found : Except ParseCause Lexeme}
    (inside : ∀ c ∈ indent, isIndent c = true) (found_eq : directive? body = some found) :
    Text.Run isIndent (indent ++ body) indent body where
  append_eq := rfl
  inside := inside
  boundary := by
    intro c head
    cases body with
    | nil => contradiction
    | cons first rest =>
        obtain rfl : first = c := by simpa using head
        refine Bool.eq_false_iff.mpr fun is_indent => ?_
        rw [directive?_eq_none_of_indent rest is_indent] at found_eq
        contradiction

theorem scans_of_scan? {lineStart : Bool} {source : List Char} {found : Except ParseCause Lexeme}
    (scanned : scan? lineStart source = some found) : Scans lineStart source found := by
  unfold scan? at scanned
  split at scanned
  · contradiction
  · rename_i first rest
    have run := Text.run_takeWhile isIndent (first :: rest)
    split at scanned
    · rename_i directive directive_eq
      cases scanned
      cases lineStart with
      | false => simp at directive_eq
      | true =>
          obtain ⟨inner, inner_eq, rfl⟩ := Option.map_eq_some_iff.mp directive_eq
          split
          · rename_i indent_eq
            rw [← run.append_eq, indent_eq]
            exact .directive inner_eq
          · rename_i indent_ne
            have scans := Scans.indent indent_ne run.inside inner_eq
            rwa [run.append_eq] at scans
    · rename_i none_eq
      cases scanned
      refine .inLine fun is_start => ?_
      simpa [is_start, indentedDirective?] using none_eq

theorem scan?_of_scans {lineStart : Bool} {source : List Char} {found : Except ParseCause Lexeme}
    (scans : Scans lineStart source found) : scan? lineStart source = some found := by
  cases scans with
  | directive found_eq =>
      have run := run_of_directive? [] (by simp) found_eq
      cases source with
      | nil => contradiction
      | cons first rest =>
          simp only [List.nil_append] at run
          simp [scan?, indentedDirective?, run.takeWhile_eq, run.dropWhile_eq, found_eq]
  | indent indent_ne inside found_eq =>
      rename_i indent body _
      have run := run_of_directive? _ inside found_eq
      cases indent with
      | nil => contradiction
      | cons first rest =>
          simp only [List.cons_append] at run ⊢
          simp [scan?, indentedDirective?, run.takeWhile_eq, run.dropWhile_eq, found_eq]
  | inLine none_eq =>
      cases lineStart with
      | false => simp [scan?]
      | true => simp [scan?, indentedDirective?, none_eq rfl]

/-- A scan has the results that its three ways lead to, and no others. -/
theorem scan?_eq_some_iff {lineStart : Bool} {source : List Char}
    {found : Except ParseCause Lexeme} :
    scan? lineStart source = some found ↔ Scans lineStart source found :=
  ⟨scans_of_scan?, scan?_of_scans⟩

theorem eq_nil_of_scan? {lineStart : Bool} {source : List Char}
    (scanned : scan? lineStart source = none) : source = [] := by
  cases source with
  | nil => rfl
  | cons first rest =>
      simp only [scan?] at scanned
      split at scanned <;> contradiction

/-- How a token lies across the lines of its text. -/
structure LineWise (lineStart : Bool) (lexeme : Lexeme) : Prop where
  /-- Only opaque tokens go on behind a line feed. -/
  inner : '\n' ∈ lexeme.text.dropLast → lexeme.form.isOpaque = true
  /-- Behind a line feed at its end a line begins. -/
  last : lexeme.text.getLast? = some '\n' → lexeme.freshLine = true
  /-- Elsewhere a line only begins behind the indentation of one that has begun. -/
  fresh : lexeme.freshLine = true →
    lexeme.text.getLast? = some '\n' ∨ lineStart = true ∧ ∀ c ∈ lexeme.text, isIndent c = true

theorem lineWise_of_not_mem {lineStart : Bool} {lexeme : Lexeme} (one_line : '\n' ∉ lexeme.text)
    (not_fresh : lexeme.freshLine = false) : LineWise lineStart lexeme where
  inner member := (one_line (List.dropLast_subset _ member)).elim
  last last_eq := (one_line (List.mem_of_getLast? last_eq)).elim
  fresh is_fresh := by simp [not_fresh] at is_fresh

theorem lineWise_of_isOpaque {lineStart : Bool} {lexeme : Lexeme}
    (opaque_eq : lexeme.form.isOpaque = true) (last_ne : lexeme.text.getLast? ≠ some '\n')
    (not_fresh : lexeme.freshLine = false) : LineWise lineStart lexeme where
  inner _ := opaque_eq
  last last_eq := (last_ne last_eq).elim
  fresh is_fresh := by simp [not_fresh] at is_fresh

theorem not_mem_takeWhile_isInLine (text : List Char) : '\n' ∉ text.takeWhile isInLine := by
  intro member
  have in_line := List.all_eq_true.mp List.all_takeWhile _ member
  simp [isInLine] at in_line

theorem getLast?_of_splitClosing {close : Char} {source : List Char}
    {parts : List Char × List Char} (found : splitClosing close source = some parts) :
    parts.1.getLast? = some close := by
  fun_induction splitClosing close source generalizing parts with
  | case1 => simp at found
  | case2 => cases found; rfl
  | case3 => simp at found
  | case4 rest ih =>
      obtain ⟨inner, inner_eq, rfl⟩ := Option.map_eq_some_iff.mp found
      simp [consFront, List.getLast?_cons, ih inner_eq]
  | case5 => cases found; rfl
  | case6 c d rest c_close ih =>
      obtain ⟨inner, inner_eq, rfl⟩ := Option.map_eq_some_iff.mp found
      simp [consFront, List.getLast?_cons, ih inner_eq]

theorem getLast?_of_splitComment {depth : Nat} {source : List Char}
    {parts : List Char × List Char} (found : splitComment depth source = some parts) :
    parts.1.getLast? = some '/' := by
  fun_induction splitComment depth source generalizing parts with
  | case1 => simp at found
  | case2 depth rest ih =>
      obtain ⟨inner, inner_eq, rfl⟩ := Option.map_eq_some_iff.mp found
      simp [consFront, List.getLast?_cons, ih inner_eq]
  | case3 => cases found; rfl
  | case4 depth rest ih =>
      obtain ⟨inner, inner_eq, rfl⟩ := Option.map_eq_some_iff.mp found
      simp [consFront, List.getLast?_cons, ih inner_eq]
  | case5 depth c rest _ _ _ ih =>
      obtain ⟨inner, inner_eq, rfl⟩ := Option.map_eq_some_iff.mp found
      simp [consFront, List.getLast?_cons, ih inner_eq]

theorem not_mem_dropLast_splitText (source : List Char) :
    '\n' ∉ (splitText source).1.dropLast := by
  fun_induction splitText source with
  | case1 => simp
  | case2 => simp
  | case3 => simp
  | case4 c rest _ c_ne ih =>
      simp only [consFront]
      cases parts_eq : (splitText rest).1 with
      | nil => simp
      | cons d inner =>
          rw [parts_eq] at ih
          simp [Ne.symm c_ne, ih]

theorem textFrom_lineWise (lineStart : Bool) (first : Char) (rest : List Char) :
    LineWise lineStart (textFrom first rest) := by
  unfold textFrom
  split
  · exact ⟨by simp, by simp, by simp_all⟩
  · rename_i first_ne
    have inner := not_mem_dropLast_splitText rest
    cases parts_eq : (splitText rest).1 with
    | nil => exact ⟨by simp [parts_eq], by simp [parts_eq, first_ne], by simp [parts_eq]⟩
    | cons d text =>
        rw [parts_eq] at inner
        refine ⟨fun member => ?_, fun last => ?_, fun fresh => .inl ?_⟩
        · simp [parts_eq, Ne.symm first_ne, inner] at member
        · simpa [parts_eq] using last
        · simpa [parts_eq] using fresh

theorem lineWise_of_closed {lineStart : Bool} {form : Form} {opener : List Char}
    {unclosed : ParseCause} {parts? : Option (List Char × List Char)} {lexeme : Lexeme} {c : Char}
    (opaque_eq : form.isOpaque = true) (c_ne : c ≠ '\n')
    (last : ∀ parts, parts? = some parts → parts.1.getLast? = some c)
    (found : closed form opener unclosed parts? = .ok lexeme) : LineWise lineStart lexeme := by
  cases parts? with
  | none => simp [closed] at found
  | some parts =>
      simp only [closed, Except.ok.injEq] at found
      subst found
      refine lineWise_of_isOpaque opaque_eq ?_ rfl
      simp [List.getLast?_append, last parts rfl, c_ne]

theorem lineWise_of_referenceFrom {lineStart : Bool} {behind : List Char} {lexeme : Lexeme}
    (found : referenceFrom behind = .ok lexeme) : LineWise lineStart lexeme := by
  unfold referenceFrom at found
  dsimp only at found
  split at found
  · split at found
    · cases found
      refine lineWise_of_not_mem ?_ rfl
      have name_inside := (Text.run_takeWhile (fun c => c != ')' && isInLine c) behind).inside
      simp only [List.mem_cons, List.mem_append, List.not_mem_nil, or_false]
      rintro (no | no | member | no)
      · exact absurd no (by decide)
      · exact absurd no (by decide)
      · simpa [isInLine] using name_inside _ member
      · exact absurd no (by decide)
    · simp at found
  · simp at found

theorem lineWise_of_inLine {lineStart : Bool} {first : Char} {rest : List Char} {lexeme : Lexeme}
    (found : inLine first rest = .ok lexeme) : LineWise lineStart lexeme := by
  unfold inLine at found
  split at found
  · exact lineWise_of_closed rfl (by decide) (fun _ => getLast?_of_splitClosing) found
  · exact lineWise_of_closed rfl (by decide) (fun _ => getLast?_of_splitClosing) found
  · exact lineWise_of_closed rfl (by decide) (fun _ => getLast?_of_splitClosing) found
  · cases found
    exact lineWise_of_not_mem (by simp [not_mem_takeWhile_isInLine]) rfl
  · exact lineWise_of_closed rfl (by decide) (fun _ => getLast?_of_splitComment) found
  · exact lineWise_of_referenceFrom found
  · cases found
    exact textFrom_lineWise _ _ _

theorem isInLine_of_separatorLine {source written digits : List Char}
    (line : SeparatorLine source written digits) : ∀ c ∈ written, isInLine c = true := by
  have word_inLine {g o : Char} (word : Text.equalsIgnoringCase [g, o] ['g', 'o'] = true) :
      isInLine g = true ∧ isInLine o = true := by
    simp only [Text.equalsIgnoringCase, Text.lowercase, List.map_cons, List.map_nil, beq_iff_eq,
      List.cons.injEq, and_true] at word
    constructor <;> refine bne_iff_ne.mpr fun c_eq => ?_
    · exact absurd (c_eq ▸ word.1) (by decide)
    · exact absurd (c_eq ▸ word.2) (by decide)
  cases line with
  | uncounted word => simpa using word_inLine word
  | counted word _ gap_indent _ digits_digit =>
      simp only [List.forall_mem_cons, List.forall_mem_append]
      refine ⟨(word_inLine word).1, (word_inLine word).2,
        fun c member => isInLine_of_isIndent (gap_indent c member), fun c member => ?_⟩
      refine isInLine_of_isWordCharacter ?_
      simp [Text.isWordCharacter, Char.isAlphanum, digits_digit c member]

theorem lineWise_of_inLine_text {lineStart : Bool} {lexeme : Lexeme}
    (in_line : ∀ c ∈ lexeme.text, isInLine c = true) (not_fresh : lexeme.freshLine = false) :
    LineWise lineStart lexeme := by
  refine lineWise_of_not_mem (fun member => ?_) not_fresh
  exact absurd (in_line _ member) (by decide)

theorem lineWise_of_directive? {lineStart : Bool} {source : List Char} {lexeme : Lexeme}
    (found : directive? source = some (.ok lexeme)) : LineWise lineStart lexeme := by
  cases directive_of_directive? found with
  | separator line => exact lineWise_of_inLine_text (isInLine_of_separatorLine line) rfl
  | command _ known => exact lineWise_of_inLine_text (run_commandLine known).inside rfl

/-- Tokens lie across lines in this way, whichever a scan finds. -/
theorem lineWise_of_scan? {lineStart : Bool} {source : List Char} {lexeme : Lexeme}
    (scanned : scan? lineStart source = some (.ok lexeme)) : LineWise lineStart lexeme := by
  generalize found_eq : Except.ok lexeme = found at scanned
  cases scans_of_scan? scanned with
  | directive directive_eq => exact lineWise_of_directive? (found_eq ▸ directive_eq)
  | indent _ inside =>
      cases found_eq
      have one_line : '\n' ∉ _ := fun member => absurd (inside _ member) (by decide)
      exact ⟨fun member => (one_line (List.dropLast_subset _ member)).elim,
        fun last => (one_line (List.mem_of_getLast? last)).elim, fun _ => .inr ⟨rfl, inside⟩⟩
  | inLine => exact lineWise_of_inLine found_eq.symm

theorem form_of_closed {form : Form} {opener : List Char} {unclosed : ParseCause}
    {parts? : Option (List Char × List Char)} {lexeme : Lexeme}
    (found : closed form opener unclosed parts? = .ok lexeme) : lexeme.form = form := by
  cases parts? <;> cases found
  rfl

theorem cause_of_closed {form : Form} {opener : List Char} {unclosed cause : ParseCause}
    {parts? : Option (List Char × List Char)}
    (found : closed form opener unclosed parts? = .error cause) : cause = unclosed := by
  cases parts? <;> cases found
  rfl

theorem form_of_textFrom (first : Char) (rest : List Char) :
    (textFrom first rest).form = .text := by
  unfold textFrom
  split <;> rfl

theorem form_of_referenceFrom {behind : List Char} {lexeme : Lexeme}
    (found : referenceFrom behind = .ok lexeme) : ∃ name, lexeme.form = .reference name := by
  unfold referenceFrom at found
  dsimp only at found
  split at found
  · split at found <;> cases found
    exact ⟨_, rfl⟩
  · cases found

theorem cause_of_referenceFrom {behind : List Char} {cause : ParseCause}
    (found : referenceFrom behind = .error cause) : cause = .malformedReference := by
  unfold referenceFrom at found
  dsimp only at found
  split at found
  · split at found <;> cases found
    rfl
  · cases found
    rfl

/-- The tokens that begin inside a line. -/
inductive Begins : (source : List Char) → Except ParseCause Lexeme → Prop
  | closed {source opener : List Char} {form : Form} {unclosed : ParseCause}
      {parts? : Option (List Char × List Char)} : form.isOpaque = true →
        unclosed ∈ [.unterminatedString, .unterminatedIdentifier, .unterminatedComment] →
          Begins source (Lexeme.closed form opener unclosed parts?)
  | lineComment {source text rest : List Char} :
      Begins source (.ok { form := .lineComment, text, rest, freshLine := false })
  | reference {behind : List Char} : Begins ('$' :: '(' :: behind) (referenceFrom behind)
  | text {first : Char} {rest : List Char} : Begins (first :: rest) (.ok (textFrom first rest))

theorem begins_inLine (first : Char) (rest : List Char) :
    Begins (first :: rest) (inLine first rest) := by
  unfold inLine
  split
  · exact .closed rfl (by simp)
  · exact .closed rfl (by simp)
  · exact .closed rfl (by simp)
  · exact .lineComment
  · exact .closed rfl (by simp)
  · exact .reference
  · exact .text

theorem not_isDirective_of_inLine {first : Char} {rest : List Char} {lexeme : Lexeme}
    (found : inLine first rest = .ok lexeme) : lexeme.form.isDirective = false := by
  have begins := begins_inLine first rest
  generalize inLine first rest = result at begins found
  cases begins with
  | closed opaque_eq =>
      rw [form_of_closed found]
      exact Form.not_isDirective_of_isOpaque opaque_eq
  | lineComment =>
      cases found
      rfl
  | reference =>
      obtain ⟨name, form_eq⟩ := form_of_referenceFrom found
      rw [form_eq]
      rfl
  | text =>
      cases found
      rw [form_of_textFrom]
      rfl

theorem cause_of_inLine {first : Char} {rest : List Char} {cause : ParseCause}
    (found : inLine first rest = .error cause) :
    cause ∈ [.unterminatedString, .unterminatedIdentifier, .unterminatedComment] ∨
      cause = .malformedReference ∧ ∃ behind, first :: rest = '$' :: '(' :: behind := by
  have begins := begins_inLine first rest
  generalize source_eq : first :: rest = source at begins
  generalize inLine first rest = result at begins found
  cases begins with
  | closed _ member =>
      rw [cause_of_closed found]
      exact .inl member
  | lineComment | text => cases found
  | reference => exact .inr ⟨cause_of_referenceFrom found, _, rfl⟩

theorem not_isDirective_of_inLine_error {first : Char} {rest : List Char} {cause : ParseCause}
    (found : inLine first rest = .error cause) : cause.isDirective = false := by
  rcases cause_of_inLine found with member | ⟨rfl, -⟩
  · simp only [List.mem_cons, List.not_mem_nil, or_false] at member
    rcases member with rfl | rfl | rfl <;> rfl
  · rfl

/-- A separator or a command is only found where a line begins. -/
theorem directive?_of_scan? {lineStart : Bool} {source : List Char} {lexeme : Lexeme}
    (scanned : scan? lineStart source = some (.ok lexeme))
    (is_directive : lexeme.form.isDirective = true) :
    lineStart = true ∧ directive? source = some (.ok lexeme) := by
  generalize found_eq : Except.ok lexeme = found at scanned
  cases scans_of_scan? scanned with
  | directive directive_eq => exact ⟨rfl, found_eq ▸ directive_eq⟩
  | indent => cases found_eq; contradiction
  | inLine => simp [not_isDirective_of_inLine found_eq.symm] at is_directive

theorem directive?_of_scan?_error {lineStart : Bool} {source : List Char} {cause : ParseCause}
    (scanned : scan? lineStart source = some (.error cause))
    (is_directive : cause.isDirective = true) :
    lineStart = true ∧ directive? source = some (.error cause) := by
  generalize found_eq : Except.error cause = found at scanned
  cases scans_of_scan? scanned with
  | directive directive_eq => exact ⟨rfl, found_eq ▸ directive_eq⟩
  | indent => cases found_eq
  | inLine => simp [not_isDirective_of_inLine_error found_eq.symm] at is_directive

theorem text_of_inLine {first : Char} {rest name : List Char} {lexeme : Lexeme}
    (found : inLine first rest = .ok lexeme) (form_eq : lexeme.form = .reference name) :
    lexeme.text = '$' :: '(' :: (name ++ [')']) := by
  have begins := begins_inLine first rest
  generalize inLine first rest = result at begins found
  cases begins with
  | closed opaque_eq =>
      rw [form_of_closed found] at form_eq
      rw [form_eq] at opaque_eq
      contradiction
  | lineComment =>
      cases found
      cases form_eq
  | reference =>
      unfold referenceFrom at found
      dsimp only at found
      split at found
      · split at found <;> cases found
        cases form_eq
        rfl
      · cases found
  | text =>
      cases found
      rw [form_of_textFrom] at form_eq
      cases form_eq

/-- A reference is written with its name in parentheses. -/
theorem text_of_scan? {lineStart : Bool} {source name : List Char} {lexeme : Lexeme}
    (scanned : scan? lineStart source = some (.ok lexeme))
    (form_eq : lexeme.form = .reference name) : lexeme.text = '$' :: '(' :: (name ++ [')']) := by
  generalize found_eq : Except.ok lexeme = found at scanned
  cases scans_of_scan? scanned with
  | directive directive_eq =>
      subst found_eq
      cases directive_of_directive? directive_eq with
      | separator | command => cases form_eq
  | indent =>
      cases found_eq
      cases form_eq
  | inLine => exact text_of_inLine found_eq.symm form_eq

/-- The arguments of a command are written behind its name. -/
theorem arguments_of_scan? {lineStart : Bool} {source lead arguments : List Char}
    {kind : CommandKind} {lexeme : Lexeme} (scanned : scan? lineStart source = some (.ok lexeme))
    (form_eq : lexeme.form = .command kind lead arguments) :
    ∃ blanks, lexeme.text = lead ++ (arguments ++ blanks) := by
  obtain ⟨-, found_eq⟩ := directive?_of_scan? scanned (by rw [form_eq]; rfl)
  cases directive_of_directive? found_eq with
  | separator => cases form_eq
  | command =>
      cases form_eq
      obtain ⟨blanks, line_eq, -⟩ := Text.trimRight_append_dropped
        ((List.dropWhile isIndent _).takeWhile isInLine)
      exact ⟨blanks, by rw [← line_eq]; rfl⟩

/-- A scan fails at a separator or a command, at an opening without its end, or at a malformed
reference. -/
theorem cause_of_scan? {lineStart : Bool} {source : List Char} {cause : ParseCause}
    (scanned : scan? lineStart source = some (.error cause)) :
    cause.isDirective = true ∨
      cause ∈ [.unterminatedString, .unterminatedIdentifier, .unterminatedComment] ∨
        cause = .malformedReference ∧ ∃ behind, source = '$' :: '(' :: behind := by
  generalize found_eq : Except.error cause = found at scanned
  cases scans_of_scan? scanned with
  | directive directive_eq =>
      subst found_eq
      cases directive_of_directive? directive_eq with
      | invalidCount | unknownCommand => exact .inl rfl
  | indent => cases found_eq
  | inLine => exact .inr (cause_of_inLine found_eq.symm)

end Lexeme
end SqlScript
