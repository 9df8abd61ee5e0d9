import SqlScript.Proofs.Build.Sources
import SqlScript.Proofs.Token.Resumption
import SqlScript.Proofs.Variable.Substitution

/-!
# Places of references in arguments

An error about a reference in a command's arguments is placed by counting what stands before the
reference.  Substitution counts from the first character that it is given.  Arguments that are
substituted as they are written are counted from where they begin, so the error is placed at the
reference.  The value of an assignment is counted from there too, although its variable's name
stands before it, so the error is placed before the reference.
-/

namespace SqlScript

/-- What stands where an error about a reference should be placed. -/
def ParseCause.written? : ParseCause → Option (List Char)
  | undefinedVariable name => some ('$' :: '(' :: (name.toList ++ [')']))
  | malformedReference => some ['$', '(']
  | _ => none

theorem ParseCause.written?_ne_nil {cause : ParseCause} {written : List Char}
    (written_eq : cause.written? = some written) : written ≠ [] := by
  cases cause <;> cases written_eq <;> simp

namespace ParseError

/-- The error is placed at the reference it is about, which stands in a text that begins at
`start`. -/
def AtReference (failure : ParseError) (start : Position) (text : List Char) : Prop :=
  ∃ before written behind, text = before ++ (written ++ behind) ∧
    failure.cause.written? = some written ∧ failure.position = start.advance before

/-- The error is placed in a text that begins at `start`, but before the reference it is about. -/
def BeforeReference (failure : ParseError) (start : Position) (text : List Char) : Prop :=
  ∃ before front written behind, text = front ++ (written ++ behind) ∧
    failure.cause.written? = some written ∧ failure.position = start.advance before ∧
      String.utf8Len before < String.utf8Len front

end ParseError

theorem error_of_bind {α β : Type} {first : Except ParseError α} {next : α → Except ParseError β}
    {failure : ParseError} (failed : (first >>= next) = .error failure) :
    first = .error failure ∨ ∃ value, first = .ok value ∧ next value = .error failure := by
  cases first with
  | error other =>
      cases failed
      exact .inl rfl
  | ok value => exact .inr ⟨value, rfl, failed⟩

namespace Variable

theorem not_mem_of_isName {name : List Char} (named : isName name = true) : '"' ∉ name :=
  fun member => absurd (isNamePart_of_isName named '"' member) (by decide)

namespace Table

variable {table : Table} {text behind : List Char}

/-- What offends stands where its error should be placed, and it has no quotes. -/
theorem Offends.written {cause : ParseCause} (offends : table.Offends behind cause) :
    ∃ written after, '$' :: '(' :: behind = written ++ after ∧ cause.written? = some written ∧
      '"' ∉ written := by
  cases offends with
  | unclosed | misnamed => exact ⟨['$', '('], behind, rfl, rfl, by decide⟩
  | @undefined name rest behind_eq _ named =>
      refine ⟨'$' :: '(' :: (name ++ [')']), rest, by simp [behind_eq],
        by simp [ParseCause.written?], ?_⟩
      simpa using not_mem_of_isName named

/-- Substitution fails at a reference.  What stands there has no quotes. -/
theorem reference_of_substitute {position : Position} {failure : ParseError}
    (failed : table.substitute position text = .error failure) :
    ∃ before written behind, text = before ++ (written ++ behind) ∧
      failure.cause.written? = some written ∧ '"' ∉ written ∧
        failure.position = position.advance before := by
  rcases table.fills_or_offends text with ⟨links, rest, filled, scan, plain, fills⟩ |
    ⟨links, before, behind, filled, cause, opens, fills, offends⟩
  · rw [substitute_eq_ok scan plain fills] at failed
    cases failed
  · rw [substitute_eq_error opens fills offends] at failed
    cases failed
    obtain ⟨written, after, behind_eq, written_eq, no_quote⟩ := offends.written
    refine ⟨links.flatMap Link.written ++ before, written, after, ?_, written_eq, no_quote, rfl⟩
    rw [← opens.1.append_eq, behind_eq, List.append_assoc]

end Table
end Variable

namespace Command

variable {command : Command} {bindings : Variable.Table} {failure : ParseError}

/-- An argument that is refused is refused at a reference, or for a reason of its own. -/
theorem requiredArgument_error {missing : String}
    (failed : command.requiredArgument bindings missing = .error failure) :
    failure.AtReference command.argumentsStart command.arguments.toList ∨
      failure = command.refuse missing := by
  rcases error_of_bind failed with substituted | ⟨argument, -, refused⟩
  · obtain ⟨before, written, behind, text_eq, written_eq, -, position_eq⟩ :=
      Variable.Table.reference_of_substitute substituted
    exact .inl ⟨before, written, behind, text_eq, written_eq, position_eq⟩
  · split at refused
    · cases refused
      exact .inr rfl
    · cases refused

/-- What a quoted value begins with is written as it is, unless it contains quotes. -/
theorem append_of_quotedValue? {behind written after : List Char} (no_quote : '"' ∉ written)
    (found : quotedValue? behind = some (written ++ after)) :
    ∃ rest, behind = written ++ rest := by
  induction written generalizing behind with
  | nil => exact ⟨behind, rfl⟩
  | cons c written ih =>
      have c_ne : '"' ≠ c := fun quote => no_quote (quote ▸ List.mem_cons_self)
      have no_quote_behind : '"' ∉ written := fun member =>
        no_quote (List.mem_cons_of_mem c member)
      unfold quotedValue? at found
      split at found
      · contradiction
      · obtain ⟨value, -, value_eq⟩ := Option.map_eq_some_iff.mp found
        exact absurd (List.cons.inj value_eq).1 c_ne
      · split at found
        · cases found
        · contradiction
      · obtain ⟨value, value_found, value_eq⟩ := Option.map_eq_some_iff.mp found
        obtain ⟨rfl, rfl⟩ := List.cons.inj value_eq
        obtain ⟨rest, rfl⟩ := ih no_quote_behind value_found
        exact ⟨rest, rfl⟩

/-- A stretch of a quoted value without quotes stands in what is written, behind at least as much as
stands before it in the value. -/
theorem split_of_quotedValue? {behind before written after : List Char} (written_ne : written ≠ [])
    (no_quote : '"' ∉ written)
    (found : quotedValue? behind = some (before ++ (written ++ after))) :
    ∃ front rest, behind = front ++ (written ++ rest) ∧
      String.utf8Len before ≤ String.utf8Len front := by
  fun_induction quotedValue? behind generalizing before with
  | case1 => contradiction
  | case2 rest ih =>
      obtain ⟨value, value_found, value_eq⟩ := Option.map_eq_some_iff.mp found
      cases before with
      | nil =>
          obtain ⟨c, tail, rfl⟩ := List.exists_cons_of_ne_nil written_ne
          exact (no_quote ((List.cons.inj value_eq).1 ▸ List.mem_cons_self)).elim
      | cons c before =>
          obtain ⟨rfl, rfl⟩ := List.cons.inj value_eq
          obtain ⟨front, behind, rfl, shorter⟩ := ih value_found
          refine ⟨'"' :: '"' :: front, behind, rfl, ?_⟩
          simp only [String.utf8Len_cons]
          omega
  | case3 =>
      have empty := (Option.some.inj found).symm
      exact (written_ne (by simp_all)).elim
  | case4 => contradiction
  | case5 c rest _ _ ih =>
      obtain ⟨value, value_found, value_eq⟩ := Option.map_eq_some_iff.mp found
      cases before with
      | nil =>
          obtain ⟨d, tail, rfl⟩ := List.exists_cons_of_ne_nil written_ne
          obtain ⟨rfl, rfl⟩ := List.cons.inj value_eq
          have no_quote_behind : '"' ∉ tail := fun member =>
            no_quote (List.mem_cons_of_mem c member)
          obtain ⟨behind, rfl⟩ := append_of_quotedValue? no_quote_behind value_found
          exact ⟨[], behind, rfl, Nat.le_refl _⟩
      | cons d before =>
          obtain ⟨rfl, rfl⟩ := List.cons.inj value_eq
          obtain ⟨front, behind, rfl, shorter⟩ := ih value_found
          refine ⟨c :: front, behind, rfl, ?_⟩
          simp only [String.utf8Len_cons]
          omega

/-- What stands before the name, the name, and the gap behind it are not counted. -/
theorem beforeReference_of_append {command : Command} {failure : ParseError}
    {lead name gap front before written behind : List Char} (name_ne : name ≠ [])
    (arguments_eq : command.arguments.toList =
      lead ++ (name ++ (gap ++ (front ++ (written ++ behind)))))
    (written_eq : failure.cause.written? = some written)
    (position_eq : failure.position = command.argumentsStart.advance before)
    (no_longer : String.utf8Len before ≤ String.utf8Len front) :
    failure.BeforeReference command.argumentsStart command.arguments.toList := by
  refine ⟨before, lead ++ (name ++ (gap ++ front)), written, behind, by simp [arguments_eq],
    written_eq, position_eq, ?_⟩
  obtain ⟨c, rest, rfl⟩ := List.exists_cons_of_ne_nil name_ne
  have size_pos := c.utf8Size_pos
  simp only [String.utf8Len_append, String.utf8Len_cons]
  omega

/-- An assignment that is refused is refused at a place before the reference in question, or for a
reason of its own. -/
theorem assignment_error (failed : command.assignment bindings = .error failure) :
    failure.BeforeReference command.argumentsStart command.arguments.toList ∨
      ∃ reason, failure = command.refuse reason := by
  obtain ⟨lead, tail, arguments_eq, -⟩ := Text.append_of_trim command.arguments.toList
  unfold assignment at failed
  generalize Text.trim command.arguments.toList = arguments at arguments_eq failed
  have name_eq := (Text.run_takeWhile (!Text.isBlank ·) arguments).append_eq
  dsimp only at failed
  split at failed
  · cases failed
    exact .inr ⟨_, rfl⟩
  rename_i name_ne
  split at failed
  · cases failed
    exact .inr ⟨_, rfl⟩
  generalize arguments.takeWhile (!Text.isBlank ·) = name at name_eq name_ne failed
  generalize arguments.dropWhile (!Text.isBlank ·) = rest at name_eq failed
  obtain ⟨gap, blanks, rest_eq, -⟩ := Text.append_of_trim rest
  split at failed
  · cases failed
  rename_i first behind trim_eq
  rw [trim_eq] at rest_eq
  have nonempty : name ≠ [] := by simpa using name_ne
  simp only [pure_bind] at failed
  split at failed
  · rename_i quote
    split at failed
    · rename_i value value_eq
      rcases error_of_bind failed with substituted | ⟨_, -, returned⟩
      · obtain ⟨before, written, after, rfl, written_eq, no_quote, position_eq⟩ :=
          Variable.Table.reference_of_substitute substituted
        obtain ⟨front, others, rfl, no_longer⟩ :=
          split_of_quotedValue? (ParseCause.written?_ne_nil written_eq) no_quote value_eq
        have split_eq : command.arguments.toList = lead ++ (name ++ (gap ++
            ('"' :: front ++ (written ++ (others ++ blanks ++ tail))))) := by
          simp [arguments_eq, ← name_eq, rest_eq, quote]
        refine .inl (beforeReference_of_append nonempty split_eq written_eq position_eq ?_)
        rw [String.utf8Len_cons]
        exact Nat.le_add_right_of_le no_longer
      · cases returned
    · cases failed
      exact .inr ⟨_, rfl⟩
  · rcases error_of_bind failed with substituted | ⟨_, -, returned⟩
    · obtain ⟨before, written, after, raw_eq, written_eq, -, position_eq⟩ :=
        Variable.Table.reference_of_substitute substituted
      have split_eq : command.arguments.toList =
          lead ++ (name ++ (gap ++ (before ++ (written ++ (after ++ blanks ++ tail))))) := by
        simp [arguments_eq, ← name_eq, rest_eq, raw_eq]
      exact .inl
        (beforeReference_of_append nonempty split_eq written_eq position_eq (Nat.le_refl _))
    · cases returned

end Command

namespace Build

/-- Why a token other than an include directive is refused. -/
inductive Refuses (bindings : Variable.Table) (token : Token) : ParseError → Prop
  | undefined {name : String} : token.kind = .reference name →
      Refuses bindings token { cause := .undefinedVariable name, position := token.start }
  | assignment {command : Command} {failure : ParseError} :
      token.kind = .command command → command.kind = .setVar →
        command.assignment bindings = .error failure → Refuses bindings token failure
  | argument {command : Command} {failure : ParseError} {missing : String} :
      token.kind = .command command → command.kind ≠ .setVar →
        command.requiredArgument bindings missing = .error failure →
          Refuses bindings token failure
  | action {command : Command} {reason : String} :
      token.kind = .command command → command.kind = .onError →
        Refuses bindings token (command.refuse reason)

variable {expand : Expansion} {token : Token} {draft : Draft} {failure : ParseError}

theorem refuses_of_perform {command : Command} {position : Position}
    (kind_eq : token.kind = .command command) (not_include : command.kind ≠ .includeFile)
    (failed : perform expand command position draft = .error failure) :
    Refuses draft.bindings token failure := by
  unfold perform at failed
  cases name_eq : command.kind with
  | setVar =>
      rw [name_eq] at failed
      rcases error_of_bind failed with refused | ⟨⟨name, value⟩, -, returned⟩
      · exact .assignment kind_eq name_eq refused
      · cases value <;> cases returned
  | includeFile => exact (not_include name_eq).elim
  | onError =>
      rw [name_eq] at failed
      dsimp only at failed
      split at failed
      · cases failed
      · cases failed
        exact .action kind_eq name_eq
  | connect | out | error | perfTrace =>
      rw [name_eq] at failed
      rcases error_of_bind failed with refused | ⟨target, -, returned⟩
      · exact .argument kind_eq (by simp [name_eq]) refused
      · cases returned
  | list | listVar | reset | quit | exit =>
      rw [name_eq] at failed
      cases failed

theorem refuses_of_accept (not_include : token.kind.commandKind? ≠ some .includeFile)
    (failed : accept expand token draft = .error failure) :
    Refuses draft.bindings token failure := by
  unfold accept at failed
  cases kind_eq : token.kind with
  | text | quotedString | quotedIdentifier | lineComment | blockComment | separator =>
      rw [kind_eq] at failed
      cases failed
  | reference name =>
      rw [kind_eq] at failed
      rcases error_of_bind failed with undefined | ⟨value, -, returned⟩
      · unfold Variable.Table.resolve at undefined
        split at undefined <;> cases undefined
        exact .undefined kind_eq
      · cases returned
  | command command =>
      rw [kind_eq] at failed not_include
      exact refuses_of_perform kind_eq (fun eq => not_include (congrArg some eq)) failed

end Build
end SqlScript
