import SqlScript.Proofs.Build.Moments
import SqlScript.Proofs.Build.References
import SqlScript.Proofs.Token.LineTails

/-!
# Outlines of built scripts

The outline of a script is what is left of it without its texts.  Values go to the pending batch as
they stand, wherever a line begins or a batch ends in them, so two scripts that are built from the
same text have the same outline whichever values the variables have, blank ones apart.
-/

namespace SqlScript

/-- What is left of a batch without the texts that may come from values. -/
structure Batch.Outline where
  index : Nat
  start : Position
  stop : Position
  repeatCount : Nat
  errorAction : ErrorAction
  connectTarget : Option String
  messageCount : Nat
  isBlank : Bool
  deriving DecidableEq, Repr

/-- What is left of a script without the texts that may come from values. -/
structure Script.Outline where
  batches : List Batch.Outline
  trailingMessageCount : Nat
  outputTargets : OutputTargets
  deriving DecidableEq, Repr

def Batch.outline (batch : Batch) : Batch.Outline where
  index := batch.index
  start := batch.start
  stop := batch.stop
  repeatCount := batch.repeatCount
  errorAction := batch.errorAction
  connectTarget := batch.connectTarget
  messageCount := batch.preamble.length
  isBlank := batch.isBlank

def Script.outline (script : Script) : Script.Outline where
  batches := script.batches.toList.map Batch.outline
  trailingMessageCount := script.trailingMessages.length
  outputTargets := script.outputTargets

/-- Neither value is blank, unless they are the same. -/
def Variable.Interchangeable (value value' : String) : Prop :=
  value = value' ∨
    Text.isBlankText value.toList = false ∧ Text.isBlankText value'.toList = false

/-- The arguments are taken as they are written, since no reference begins in them. -/
def Command.IsVerbatim (command : Command) : Prop :=
  ¬['$', '('] <:+: command.arguments.toList

instance (command : Command) : Decidable command.IsVerbatim :=
  inferInstanceAs (Decidable (¬_))

/-- If the token is a command, its arguments are taken as they are written. -/
def Token.IsVerbatim (token : Token) : Prop :=
  ∀ command, token.kind = .command command → command.IsVerbatim

instance (token : Token) : Decidable token.IsVerbatim :=
  match kind_eq : token.kind with
  | .command command =>
      decidable_of_iff command.IsVerbatim
        ⟨fun verbatim other other_eq => by cases kind_eq.symm.trans other_eq; exact verbatim,
          fun verbatim => verbatim command kind_eq⟩
  | .text | .quotedString | .quotedIdentifier | .lineComment | .blockComment | .separator _
  | .reference _ => isTrue fun _ other_eq => nomatch kind_eq.symm.trans other_eq

namespace Variable

namespace Interchangeable

variable {value value' : String}

theorem isBlankText_eq (same : Interchangeable value value') :
    Text.isBlankText value.toList = Text.isBlankText value'.toList := by
  rcases same with rfl | ⟨not_blank, not_blank'⟩
  · rfl
  · rw [not_blank, not_blank']

theorem isEmpty_eq (same : Interchangeable value value') :
    value.toList.isEmpty = value'.toList.isEmpty := by
  rcases same with rfl | ⟨not_blank, not_blank'⟩
  · rfl
  · cases value_eq : value.toList with
    | nil => simp [value_eq, Text.isBlankText] at not_blank
    | cons c text =>
        cases value_eq' : value'.toList with
        | nil => simp [value_eq', Text.isBlankText] at not_blank'
        | cons d text' => rfl

end Interchangeable

namespace Table

/-- The tables have the same names, with interchangeable values. -/
def Alike (left right : Table) : Prop :=
  ∀ name, Option.Rel Interchangeable (left.get? name) (right.get? name)

variable {left right : Table}

theorem Alike.insert (alike : left.Alike right) (name value : String) :
    (left.insert name value).Alike (right.insert name value) := by
  intro other
  rw [get?_insert, get?_insert]
  split
  · exact .some (.inl rfl)
  · exact alike other

theorem Alike.erase (alike : left.Alike right) (name : String) :
    (left.erase name).Alike (right.erase name) := by
  intro other
  rw [get?_erase, get?_erase]
  split
  · exact .none
  · exact alike other

/-- Tables with the same names and without blank values are alike. -/
theorem alike_of_contains (same_names : ∀ name, left.contains name = right.contains name)
    (not_blank : ∀ name value, left.get? name = some value ∨ right.get? name = some value →
      Text.isBlankText value.toList = false) : left.Alike right := by
  intro name
  have same := same_names name
  have not_blank_here := not_blank name
  unfold contains at same
  generalize left.get? name = found, right.get? name = found' at same not_blank_here
  cases found <;> cases found'
  case none.none => exact .none
  case some.some => exact .some (.inr ⟨not_blank_here _ (.inl rfl), not_blank_here _ (.inr rfl)⟩)
  all_goals contradiction

end Table
end Variable

theorem Text.trim_infix (text : List Char) : trim text <:+: text := by
  obtain ⟨lead, tail, text_eq, -⟩ := append_of_trim text
  exact ⟨lead, tail, by rw [List.append_assoc, ← text_eq]⟩

namespace Command

variable {command : Command}

theorem requiredArgument_of_verbatim (verbatim : command.IsVerbatim) (missing : String)
    (left right : Variable.Table) :
    command.requiredArgument left missing = command.requiredArgument right missing := by
  unfold requiredArgument
  rw [left.substitute_eq_self _ verbatim, right.substitute_eq_self _ verbatim]

/-- No reference begins in a quoted value if none begins in what is written. -/
theorem verbatim_of_quotedValue? {behind value : List Char} (verbatim : ¬['$', '('] <:+: behind)
    (found : quotedValue? behind = some value) : ¬['$', '('] <:+: value := by
  rintro ⟨before, after, rfl⟩
  rw [List.append_assoc] at found
  obtain ⟨front, rest, rfl, -⟩ := split_of_quotedValue? (by simp) (by decide) found
  exact verbatim ⟨front, rest, by rw [List.append_assoc]⟩

theorem assignment_of_verbatim (verbatim : command.IsVerbatim) (left right : Variable.Table) :
    command.assignment left = command.assignment right := by
  have in_written : Text.trim ((Text.trim command.arguments.toList).dropWhile
      (!Text.isBlank ·)) <:+: command.arguments.toList :=
    (Text.trim_infix _).trans ((List.dropWhile_suffix _).isInfix.trans (Text.trim_infix _))
  unfold assignment
  dsimp only
  split
  · rfl
  split
  · rfl
  split
  · rfl
  · rename_i first behind written_eq
    rw [written_eq] at in_written
    have in_behind : ¬['$', '('] <:+: behind := fun inside =>
      verbatim ((List.infix_cons inside).trans in_written)
    split
    · cases quoted : quotedValue? behind with
      | none => rfl
      | some value =>
          have in_value := verbatim_of_quotedValue? in_behind quoted
          simp [left.substitute_eq_self _ in_value, right.substitute_eq_self _ in_value]
    · have in_raw : ¬['$', '('] <:+: first :: behind := fun inside =>
        verbatim (inside.trans in_written)
      simp [left.substitute_eq_self _ in_raw, right.substitute_eq_self _ in_raw]

end Command

namespace Pending

/-- The pending batches stand at the same places of the source, and are blank or not. -/
structure Alike (left right : Pending) : Prop where
  first_eq : left.first = right.first
  start_eq : left.start = right.start
  stop_eq : left.stop = right.stop
  onSeparatorLine_eq : left.onSeparatorLine = right.onSeparatorLine
  isBlank_eq : Text.isBlankText left.text.toList = Text.isBlankText right.text.toList

variable {left right : Pending}

theorem Alike.push (alike : left.Alike right) (origin : Position) (c : Char) :
    (left.push origin c).Alike (right.push origin c) where
  first_eq := alike.first_eq
  start_eq := by simp [Pending.push, alike.start_eq, alike.onSeparatorLine_eq]
  stop_eq := alike.stop_eq
  onSeparatorLine_eq := by simp [Pending.push, alike.onSeparatorLine_eq]
  isBlank_eq := by rw [toList_push, toList_push, Text.isBlankText_append, Text.isBlankText_append,
    alike.isBlank_eq]

theorem Alike.pushLiteral (alike : left.Alike right) (position : Position) (text : List Char) :
    (pushLiteral position text left).Alike (pushLiteral position text right) := by
  induction text generalizing position left right with
  | nil => exact alike
  | cons c text ih => exact ih (alike.push position c) _

theorem Alike.appendLiteral (alike : left.Alike right) (start stop : Position) (text : String) :
    (left.appendLiteral start stop text).Alike (right.appendLiteral start stop text) := by
  unfold Pending.appendLiteral contribute
  split
  · exact alike
  · have filled := alike.pushLiteral start text.toList
    exact { filled with first_eq := by simp [alike.first_eq], stop_eq := rfl }

/-- Behind the line of the separator a value that is not empty is where the batch begins, unless
something stands before it. -/
theorem pushValue_behind_line (origin : Position) {text : List Char} (text_ne : text ≠ [])
    {pending : Pending} (behind_line : pending.onSeparatorLine = false) :
    (pushValue origin text pending).start = (pending.start <|> some origin) ∧
      (pushValue origin text pending).onSeparatorLine = false := by
  induction text generalizing pending with
  | nil => contradiction
  | cons c text ih =>
      have start_eq : (pending.push origin c).start = (pending.start <|> some origin) := by
        simp [Pending.push, behind_line]
      have still_behind : (pending.push origin c).onSeparatorLine = false := by
        simp [Pending.push, behind_line]
      rw [pushValue, List.foldl_cons, ← pushValue]
      cases text with
      | nil => exact ⟨start_eq, still_behind⟩
      | cons d text =>
          obtain ⟨start_eq', behind⟩ := ih (by simp) still_behind
          refine ⟨?_, behind⟩
          rw [start_eq', start_eq]
          cases pending.start <;> rfl

theorem Alike.appendValue (alike : left.Alike right) (behind_line : left.onSeparatorLine = false)
    (start stop : Position) {value value' : String}
    (same : Variable.Interchangeable value value') :
    (left.appendValue start stop value).Alike (right.appendValue start stop value') := by
  have behind_line' := alike.onSeparatorLine_eq.symm.trans behind_line
  unfold Pending.appendValue contribute
  rw [same.isEmpty_eq]
  split
  · exact alike
  · rename_i value_ne'
    have value_ne := value_ne'
    rw [← same.isEmpty_eq] at value_ne
    obtain ⟨start_eq, behind⟩ :=
      pushValue_behind_line start (mt List.isEmpty_iff.mpr value_ne) behind_line
    obtain ⟨start_eq', behind'⟩ :=
      pushValue_behind_line start (mt List.isEmpty_iff.mpr value_ne') behind_line'
    exact {
      first_eq := by simp [alike.first_eq]
      start_eq := start_eq.trans (alike.start_eq ▸ start_eq'.symm)
      stop_eq := rfl
      onSeparatorLine_eq := behind.trans behind'.symm
      isBlank_eq := by
        simp only [toList_pushValue, Text.isBlankText_append, alike.isBlank_eq,
          same.isBlankText_eq] }

theorem onSeparatorLine_appendValue {pending : Pending}
    (behind_line : pending.onSeparatorLine = false) (start stop : Position) (value : String) :
    (pending.appendValue start stop value).onSeparatorLine = false := by
  unfold Pending.appendValue contribute
  split
  · exact behind_line
  · rename_i value_ne
    exact (pushValue_behind_line start (mt List.isEmpty_iff.mpr value_ne) behind_line).2

theorem onSeparatorLine_pushLiteral (position : Position) (text : List Char) (pending : Pending) :
    (pushLiteral position text pending).onSeparatorLine =
      (pending.onSeparatorLine && !text.contains '\n') := by
  induction text generalizing position pending with
  | nil => simp [Pending.pushLiteral]
  | cons c text ih =>
      rw [Pending.pushLiteral, ih]
      have feed_eq : (c != '\n') = !('\n' == c) := by rw [bne, Bool.beq_comm]
      rw [List.contains_cons, Bool.not_or, ← feed_eq, ← Bool.and_assoc]
      rfl

/-- Only literal text with a line feed leads away from the line of the separator. -/
theorem onSeparatorLine_appendLiteral (pending : Pending) (start stop : Position) (text : String) :
    (pending.appendLiteral start stop text).onSeparatorLine =
      (pending.onSeparatorLine && !text.toList.contains '\n') := by
  unfold Pending.appendLiteral contribute
  split
  · simp_all
  · exact onSeparatorLine_pushLiteral start text.toList pending

end Pending

namespace Draft

/-- The drafts differ in texts only that may come from values. -/
structure Alike (left right : Draft) : Prop where
  bindings : left.bindings.Alike right.bindings
  pending : left.pending.Alike right.pending
  batches_eq : left.batches.toList.map Batch.outline = right.batches.toList.map Batch.outline
  errorAction_eq : left.errorAction = right.errorAction
  connectTarget_eq : left.connectTarget = right.connectTarget
  messageCount_eq : left.preamble.length = right.preamble.length
  outputTargets_eq : left.outputTargets = right.outputTargets

variable {left right : Draft}

theorem alike_start (options : BuildOptions) {left right : Variable.Table}
    (alike : left.Alike right) : (start options left).Alike (start options right) where
  bindings := alike
  pending := ⟨rfl, rfl, rfl, rfl, rfl⟩
  batches_eq := rfl
  errorAction_eq := rfl
  connectTarget_eq := rfl
  messageCount_eq := rfl
  outputTargets_eq := rfl

theorem Alike.announce (alike : left.Alike right) (message message' : String) :
    (left.announce message).Alike (right.announce message') :=
  { alike with messageCount_eq := by simp [Draft.announce, alike.messageCount_eq] }

theorem Alike.close (alike : left.Alike right) (repeatCount : Nat) (separator : Option Position) :
    (left.close repeatCount separator).Alike (right.close repeatCount separator) := by
  obtain ⟨first_eq, start_eq, stop_eq, -, blank_eq⟩ := alike.pending
  have size_eq : left.batches.size = right.batches.size := by
    simpa using congrArg List.length alike.batches_eq
  have region_eq : left.pending.region? separator = right.pending.region? separator := by
    simp only [Pending.region?, start_eq, first_eq, stop_eq]
  unfold Draft.close
  rw [region_eq]
  cases right.pending.region? separator with
  | none => exact { alike with pending := ⟨rfl, rfl, rfl, rfl, rfl⟩ }
  | some region =>
      cases is_blank : Text.isBlankText right.pending.text.toList <;>
        simp only [Batch.isBlank, blank_eq, is_blank, if_true, if_false, Bool.false_eq_true]
      case true =>
        refine { alike with pending := ⟨rfl, rfl, rfl, rfl, rfl⟩, batches_eq := ?_ }
        simp [alike.batches_eq, Batch.outline, Batch.isBlank, size_eq, blank_eq,
          alike.errorAction_eq, alike.connectTarget_eq]
      case false =>
        refine { alike with
          pending := ⟨rfl, rfl, rfl, rfl, rfl⟩, batches_eq := ?_, messageCount_eq := rfl }
        simp [alike.batches_eq, Batch.outline, Batch.isBlank, size_eq, blank_eq,
          alike.errorAction_eq, alike.connectTarget_eq, alike.messageCount_eq]

/-- Scripts that are finished from such drafts have one outline. -/
theorem Alike.outline_finish (alike : left.Alike right) :
    left.finish.outline = right.finish.outline := by
  have batches_eq (draft : Draft) : draft.finish.batches.toList.map Batch.outline =
      ((draft.batches.toList.map Batch.outline).reverse.dropWhile
        Batch.Outline.isBlank).reverse := by
    rw [toList_finish, ← List.map_reverse, List.dropWhile_map, ← List.map_reverse]
    rfl
  simp only [Script.outline, batches_eq, alike.batches_eq]
  simp [Draft.finish, alike.messageCount_eq, alike.outputTargets_eq]

end Draft

/-- Both walks fail with one error, or go equally far and end with drafts that are alike. -/
inductive Walk.Alike : Walk → Walk → Prop
  | error (failure : ParseError) : Alike (.error failure) (.error failure)
  | ok (flow : Flow) {left right : Draft} : left.Alike right →
      Alike (.ok (flow, left)) (.ok (flow, right))

namespace Build

open Token (LineTail Lined)

variable {inclusion : Expansion} {token : Token} {tokens : List Token} {left right : Draft}

/-- What a command makes of drafts that are alike is alike. -/
theorem alike_perform {command : Command} (position : Position) (verbatim : command.IsVerbatim)
    (alike : left.Alike right)
    (expanded : Walk.Alike (inclusion command position left) (inclusion command position right)) :
    Walk.Alike (perform inclusion command position left)
      (perform inclusion command position right) := by
  have argument_eq (missing : String) := command.requiredArgument_of_verbatim verbatim missing
    left.bindings right.bindings
  unfold perform targetOf
  cases command.kind with
  | setVar =>
      dsimp only
      rw [command.assignment_of_verbatim verbatim left.bindings right.bindings]
      cases command.assignment right.bindings with
      | error failure => exact .error failure
      | ok assigned =>
          obtain ⟨name, _ | value⟩ := assigned
          · exact .ok .goOn { alike with bindings := alike.bindings.erase name }
          · exact .ok .goOn { alike with bindings := alike.bindings.insert name value }
  | includeFile => exact expanded
  | onError =>
      dsimp only
      cases ErrorAction.ofArgument? command.arguments with
      | none => exact .error _
      | some errorAction => exact .ok .goOn { alike with errorAction_eq := rfl }
  | connect =>
      dsimp only
      rw [argument_eq]
      cases command.requiredArgument right.bindings "missing server name" with
      | error failure => exact .error failure
      | ok target => exact .ok .goOn { alike with connectTarget_eq := rfl }
  | list => exact .ok .goOn (alike.announce _ _)
  | listVar => exact .ok .goOn (alike.announce _ _)
  | out | error | perfTrace =>
      dsimp only
      rw [argument_eq]
      cases command.requiredArgument right.bindings "missing target" with
      | error failure => exact .error failure
      | ok target =>
          exact .ok .goOn { alike with outputTargets_eq := by simp [alike.outputTargets_eq] }
  | reset => exact .ok .goOn { alike with pending := ⟨rfl, rfl, rfl, rfl, rfl⟩ }
  | quit => exact .ok .stop alike
  | exit => exact .ok .stop (alike.close 1 none)

/-- On the line of a separator only text and comments are to come. -/
def Awaits (draft : Draft) (tokens : List Token) : Prop :=
  draft.pending.onSeparatorLine = true → LineTail tokens

/-- On the line of a separator neither a value nor a directive is taken in. -/
theorem Awaits.behind_line (awaits : Awaits left (token :: tokens))
    (kind_ne : ¬(token.kind = .text ∨ token.kind = .lineComment)) :
    left.pending.onSeparatorLine = false :=
  Bool.eq_false_iff.mpr fun on_line => kind_ne (awaits on_line).kind_of_cons

theorem alike_accept (verbatim : token.IsVerbatim) (alike : left.Alike right)
    (awaits : Awaits left (token :: tokens))
    (expanded : ∀ command, token.kind = .command command →
      Walk.Alike (inclusion command token.start left) (inclusion command token.start right)) :
    Walk.Alike (accept inclusion token left) (accept inclusion token right) := by
  unfold accept
  cases kind_eq : token.kind with
  | text | quotedString | quotedIdentifier | lineComment | blockComment =>
      exact .ok .goOn { alike with pending := alike.pending.appendLiteral _ _ _ }
  | reference name =>
      have behind_line := awaits.behind_line (by simp [kind_eq])
      have values := alike.bindings name
      dsimp only
      unfold Variable.Table.resolve
      generalize left.bindings.get? name = found, right.bindings.get? name = found' at values
      cases values with
      | none => exact .error _
      | some same =>
          exact .ok .goOn { alike with pending := alike.pending.appendValue behind_line _ _ same }
  | separator repeatCount => exact .ok .goOn (alike.close repeatCount _)
  | command command =>
      exact alike_perform token.start (verbatim command kind_eq) alike (expanded command kind_eq)

/-- A token that is taken in leaves the rest of a separator's line to come. -/
theorem awaits_accept {draft after : Draft} (lined : Lined (token :: tokens))
    (awaits : Awaits draft (token :: tokens))
    (accepted : accept inclusion token draft = .ok (.goOn, after)) : Awaits after tokens := by
  by_cases is_directive : token.kind.isDirective = true
  · exact fun _ => lined.1 is_directive
  intro on_line
  unfold accept at accepted
  cases kind_eq : token.kind with
  | text | quotedString | quotedIdentifier | lineComment | blockComment =>
      rw [kind_eq] at accepted
      cases accepted
      rw [Pending.onSeparatorLine_appendLiteral, Bool.and_eq_true] at on_line
      obtain ⟨was_on_line, no_feed⟩ := on_line
      cases awaits was_on_line with
      | ends _ feed => simp [feed] at no_feed
      | goesOn _ tail => exact tail
  | reference name =>
      have behind_line := awaits.behind_line (by simp [kind_eq])
      rw [kind_eq] at accepted
      obtain ⟨value, -, rest⟩ := ok_of_bind accepted
      cases rest
      rw [Pending.onSeparatorLine_appendValue behind_line] at on_line
      contradiction
  | separator | command => simp [kind_eq, TokenKind.isDirective] at is_directive

theorem alike_walk
    (expanded : ∀ command position (left right : Draft), command.IsVerbatim → left.Alike right →
      left.pending.onSeparatorLine = false →
        Walk.Alike (inclusion command position left) (inclusion command position right))
    (verbatim : ∀ token ∈ tokens, token.IsVerbatim) (lined : Lined tokens)
    (alike : left.Alike right) (awaits : Awaits left tokens) :
    Walk.Alike (walk inclusion tokens left) (walk inclusion tokens right) := by
  induction tokens generalizing left right with
  | nil => exact .ok .goOn alike
  | cons token tokens ih =>
      obtain ⟨here, later⟩ := List.forall_mem_cons.mp verbatim
      have accepted : Walk.Alike (accept inclusion token left) (accept inclusion token right) :=
        alike_accept here alike awaits fun command kind_eq =>
          expanded command token.start left right (here command kind_eq) alike
            (awaits.behind_line (by simp [kind_eq]))
      rw [walk_cons, walk_cons]
      generalize accepted_eq : accept inclusion token left = result at accepted
      generalize accept inclusion token right = result' at accepted
      cases accepted with
      | error failure => exact .error failure
      | ok flow alike_after =>
          cases flow with
          | goOn => exact ih later lined.2 alike_after (awaits_accept lined awaits accepted_eq)
          | stop => exact .ok .stop alike_after

/-- No command in the files takes a value. -/
def VerbatimFiles (resolver : Resolver) : Prop :=
  ∀ path requester file, resolver path requester = .ok file →
    ∀ token ∈ (Lexing.ofText (.included file.path) file.text).tokens, token.IsVerbatim

/-- Includes leave drafts alike, however deeply they are nested. -/
theorem alike_expand {resolver : Resolver} (files : VerbatimFiles resolver) (limit depth : Nat)
    (stack : List String) {command : Command} (position : Position)
    (verbatim : command.IsVerbatim) (alike : left.Alike right)
    (behind_line : left.pending.onSeparatorLine = false) :
    Walk.Alike (expand resolver limit depth stack command position left)
      (expand resolver limit depth stack command position right) := by
  have argument_eq := command.requiredArgument_of_verbatim verbatim "missing file path"
    left.bindings right.bindings
  induction depth generalizing stack command position left right with
  | zero =>
      unfold Build.expand
      rw [argument_eq]
      cases command.requiredArgument right.bindings "missing file path" with
      | error failure => exact .error failure
      | ok path => exact .error _
  | succ depth ih =>
      unfold Build.expand
      rw [argument_eq]
      cases command.requiredArgument right.bindings "missing file path" with
      | error failure => exact .error failure
      | ok path =>
          dsimp only [bind, Except.bind]
          cases file_eq : resolver path position.file with
          | error failure => exact .error _
          | ok file =>
              dsimp only
              split
              · exact .error _
              · cases tokens_eq : tokenize (.included file.path) file.text with
                | error failure => exact .error failure
                | ok tokens =>
                    have verbatim_inside := files path position.file file file_eq
                    rw [Lexing.ofText_of_tokenize tokens_eq] at verbatim_inside
                    refine alike_walk ?_ verbatim_inside (Lexing.lined_of_tokenize tokens_eq) alike
                      fun on_line => ?_
                    · intro command position left right verbatim alike behind_line
                      exact ih (file.path :: stack) position verbatim alike behind_line
                        (command.requiredArgument_of_verbatim verbatim _ _ _)
                    · rw [behind_line] at on_line
                      contradiction

theorem outline_scriptOf {walked walked' : Walk} (alike : Walk.Alike walked walked') :
    (scriptOf walked).map Script.outline = (scriptOf walked').map Script.outline := by
  cases alike with
  | error failure => rfl
  | ok flow alike =>
      cases flow with
      | goOn => exact congrArg Except.ok (alike.close 1 none).outline_finish
      | stop => exact congrArg Except.ok alike.outline_finish

end Build

/-- The values of variables decide neither whether a script can be built nor what its outline is, as
long as no command takes one as an argument. -/
theorem outline_of_build {resolver : Resolver} {options : BuildOptions}
    {left right : Variable.Table} {text : String}
    (verbatim : ∀ file content, Supplies resolver text file content →
      ∀ token ∈ (Lexing.ofText file content).tokens, token.IsVerbatim)
    (same_names : ∀ name, left.contains name = right.contains name)
    (not_blank : ∀ name value, left.get? name = some value ∨ right.get? name = some value →
      Text.isBlankText value.toList = false) :
    (build resolver options left text).map Script.outline =
      (build resolver options right text).map Script.outline := by
  have alike := Variable.Table.alike_of_contains same_names not_blank
  unfold build
  cases tokens_eq : tokenize .script text with
  | error failure => rfl
  | ok tokens =>
      have verbatim_outside := verbatim .script text .script
      rw [Lexing.ofText_of_tokenize tokens_eq] at verbatim_outside
      dsimp only [bind, Except.bind]
      rw [Build.buildTokens_eq, Build.buildTokens_eq]
      refine Build.outline_scriptOf (Build.alike_walk ?_ verbatim_outside
        (Lexing.lined_of_tokenize tokens_eq) (Draft.alike_start options alike)
        fun on_line => nomatch on_line)
      intro command position left right verbatim_command alike behind_line
      exact Build.alike_expand (fun _ _ _ file_eq => verbatim _ _ (.included file_eq)) _ _ _ _
        verbatim_command alike behind_line

/-- Neither a separator nor a command nor the beginning of a string in a value has an effect. -/
theorem outline_of_build_with_lines_in_value :
    let resolver := Resolver.ofFiles [("a", "$(v)\nGO\n")]
    let text := ":r a\n:list\nx $(v)\nGO 2\n$(v)"
    ∃ script script',
      build resolver {} (.ofList [("v", "y")]) text = .ok script ∧
        build resolver {} (.ofList [("v", "\nGO 3\n:quit\n\x27$(")]) text = .ok script' ∧
          script.outline = script'.outline := by
  intro resolver text
  have verbatim : ∀ file content, Supplies resolver text file content →
      ∀ token ∈ (Lexing.ofText file content).tokens, token.IsVerbatim := by
    rintro file content (_ | file_eq)
    · decide +kernel +zetaReduce
    · rename_i path requester file
      obtain rfl : file = { path := "a", text := "$(v)\nGO\n" } := by
        by_cases path_eq : path = "a"
        · subst path_eq
          exact (Except.ok.inj file_eq).symm
        · simp [resolver, Resolver.ofFiles, List.lookup_cons,
            beq_eq_false_iff_ne.mpr path_eq] at file_eq
      decide +kernel
  have get?_eq (name value : String) : (Variable.Table.ofList [("v", value)]).get? name =
      if Variable.keyOf "v" = Variable.keyOf name then some value else none :=
    Variable.Table.get?_insert .empty "v" value name
  have same_names (name : String) : (Variable.Table.ofList [("v", "y")]).contains name =
      (Variable.Table.ofList [("v", "\nGO 3\n:quit\n\x27$(")]).contains name := by
    rw [Variable.Table.contains, Variable.Table.contains, get?_eq, get?_eq]
    split <;> rfl
  have not_blank (name value : String)
      (found : (Variable.Table.ofList [("v", "y")]).get? name = some value ∨
        (Variable.Table.ofList [("v", "\nGO 3\n:quit\n\x27$(")]).get? name = some value) :
      Text.isBlankText value.toList = false := by
    rw [get?_eq, get?_eq] at found
    split at found
    · rcases found with found | found <;> cases found <;> decide
    · rcases found with found | found <;> contradiction
  have evaluated : (build resolver {} (.ofList [("v", "y")]) text).toBool = true := by
    decide +kernel +zetaReduce
  have outline_eq := @outline_of_build resolver {} _ _ text verbatim same_names not_blank
  cases built : build resolver {} (.ofList [("v", "y")]) text with
  | error failure =>
      rw [built] at evaluated
      contradiction
  | ok script =>
      rw [built] at outline_eq
      cases built' : build resolver {} (.ofList [("v", "\nGO 3\n:quit\n\x27$(")]) text with
      | error failure =>
          rw [built'] at outline_eq
          contradiction
      | ok script' =>
          rw [built'] at outline_eq
          exact ⟨script, script', rfl, rfl, Except.ok.inj outline_eq⟩

end SqlScript
