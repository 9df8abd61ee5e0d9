import SqlScript.Build

/-!
# Expansion of includes

What a script consists of is the row of its tokens in which every include directive is replaced by
the tokens of its file.  `Expands` describes that row without regard to drafts.  A walk that
succeeds walks through exactly this row, whatever becomes of the batches on the way.
-/

namespace SqlScript

/-- The command of a command token. -/
def TokenKind.commandKind? : TokenKind → Option CommandKind
  | command written => some written.kind
  | _ => none

/-- The variables behind a token. -/
def Variable.Table.after (bindings : Variable.Table) (token : Token) : Variable.Table :=
  match token.kind with
  | .command command =>
      match command.kind, command.assignment bindings with
      | .setVar, .ok (name, some value) => bindings.insert name value
      | .setVar, .ok (name, none) => bindings.erase name
      | _, _ => bindings
  | _ => bindings

theorem Variable.Table.after_of_ne (bindings : Variable.Table) {token : Token}
    {command : Command} (kind_eq : token.kind = .command command)
    (not_setVar : command.kind ≠ .setVar) :
    bindings.after token = bindings := by
  unfold after
  rw [kind_eq]
  dsimp only
  split
  · contradiction
  · contradiction
  · rfl

theorem ok_of_bind {ε α β : Type} {first : Except ε α} {next : α → Except ε β}
    {result : β} (found : (first >>= next) = .ok result) :
    ∃ value, first = .ok value ∧ next value = .ok result := by
  cases first with
  | error failure => contradiction
  | ok value => exact ⟨value, rfl, found⟩

/-- The tokens of the file that an include directive draws in. -/
inductive Included (resolver : Resolver) (bindings : Variable.Table) (token : Token) :
    List Token → Prop
  | intro {command : Command} {path : String} {file : IncludedFile} {tokens : List Token} :
      token.kind = .command command → command.kind = .includeFile →
        command.requiredArgument bindings "missing file path" = .ok path →
          resolver path token.start.file = .ok file →
            tokenize (.included file.path) file.text = .ok tokens →
              Included resolver bindings token tokens

/-- The row `flat` is `tokens` with each include directive replaced by the tokens it stands for.  It
ends with the command that ends the script, if there is one. -/
inductive Expands (resolver : Resolver) : (bindings : Variable.Table) → (tokens : List Token) →
    (flat : List Token) → Flow → (last : Variable.Table) → Prop
  | nil {bindings : Variable.Table} : Expands resolver bindings [] [] .goOn bindings
  | plain {bindings last : Variable.Table} {token : Token} {tokens flat : List Token}
      {flow : Flow} :
      token.kind.commandKind? ∉ [some .includeFile, some .quit, some .exit] →
        Expands resolver (bindings.after token) tokens flat flow last →
          Expands resolver bindings (token :: tokens) (token :: flat) flow last
  | stop {bindings : Variable.Table} {token : Token} {tokens : List Token} :
      token.kind.commandKind? ∈ [some .quit, some .exit] →
        Expands resolver bindings (token :: tokens) [token] .stop bindings
  | included {bindings middle last : Variable.Table} {token : Token}
      {tokens inside inner outer : List Token} {flow : Flow} :
      Included resolver bindings token inside →
      Expands resolver bindings inside inner .goOn middle →
        Expands resolver middle tokens outer flow last →
          Expands resolver bindings (token :: tokens) (inner ++ outer) flow last
  | stopInside {bindings last : Variable.Table} {token : Token}
      {tokens inside inner : List Token} :
      Included resolver bindings token inside → Expands resolver bindings inside inner .stop last →
        Expands resolver bindings (token :: tokens) inner .stop last

theorem command_of_commandKind? {kind : TokenKind} {found : CommandKind}
    (kind_eq : kind.commandKind? = some found) :
    ∃ command, kind = .command command ∧ command.kind = found := by
  cases kind with
  | command written => exact ⟨written, rfl, Option.some.inj kind_eq⟩
  | _ => contradiction

theorem TokenKind.not_isSeparator_of_isLiteral {kind : TokenKind}
    (is_literal : kind.isLiteral = true) : kind.isSeparator = false := by
  cases kind <;> first | rfl | contradiction

theorem Variable.Table.after_of_stop {bindings : Variable.Table} {token : Token}
    (stops : token.kind.commandKind? ∈ [some .quit, some .exit]) :
    bindings.after token = bindings := by
  have quits_or_exits := by simpa using stops
  rcases quits_or_exits with quits | exits
  · obtain ⟨command, kind_eq, name_eq⟩ := command_of_commandKind? quits
    exact after_of_ne bindings kind_eq (by simp [name_eq])
  · obtain ⟨command, kind_eq, name_eq⟩ := command_of_commandKind? exits
    exact after_of_ne bindings kind_eq (by simp [name_eq])

theorem Included.commandKind?_eq {resolver : Resolver} {bindings : Variable.Table} {token : Token}
    {tokens : List Token} (drawn : Included resolver bindings token tokens) :
    token.kind.commandKind? = some .includeFile := by
  cases drawn with
  | intro kind_eq include_eq => rw [kind_eq, ← include_eq]; rfl

theorem Included.unique {resolver : Resolver} {bindings : Variable.Table} {token : Token}
    {tokens tokens' : List Token} (drawn : Included resolver bindings token tokens)
    (drawn' : Included resolver bindings token tokens') : tokens = tokens' := by
  cases drawn with
  | intro kind_eq _ path_eq file_eq tokens_eq =>
      cases drawn' with
      | intro kind_eq' _ path_eq' file_eq' tokens_eq' =>
          cases kind_eq.symm.trans kind_eq'
          cases path_eq.symm.trans path_eq'
          cases file_eq.symm.trans file_eq'
          cases tokens_eq.symm.trans tokens_eq'
          rfl

/-- A row of tokens has one expansion. -/
theorem Expands.unique {resolver : Resolver} {bindings last last' : Variable.Table}
    {tokens flat flat' : List Token} {flow flow' : Flow}
    (expands : Expands resolver bindings tokens flat flow last)
    (expands' : Expands resolver bindings tokens flat' flow' last') :
    flat = flat' ∧ flow = flow' ∧ last = last' := by
  induction expands generalizing flat' flow' last' with
  | nil =>
      cases expands'
      exact ⟨rfl, rfl, rfl⟩
  | plain not_special _ ih =>
      cases expands' with
      | plain _ behind =>
          obtain ⟨rfl, rfl, rfl⟩ := ih behind
          exact ⟨rfl, rfl, rfl⟩
      | stop stops => simp_all
      | included drawn => simp [drawn.commandKind?_eq] at not_special
      | stopInside drawn => simp [drawn.commandKind?_eq] at not_special
  | stop stops =>
      cases expands' with
      | plain not_special => simp_all
      | stop => exact ⟨rfl, rfl, rfl⟩
      | included drawn => simp [drawn.commandKind?_eq] at stops
      | stopInside drawn => simp [drawn.commandKind?_eq] at stops
  | included drawn _ _ ih_inside ih_behind =>
      cases expands' with
      | plain not_special => simp [drawn.commandKind?_eq] at not_special
      | stop stops => simp [drawn.commandKind?_eq] at stops
      | included drawn' inside behind =>
          obtain rfl := drawn.unique drawn'
          obtain ⟨rfl, -, rfl⟩ := ih_inside inside
          obtain ⟨rfl, rfl, rfl⟩ := ih_behind behind
          exact ⟨rfl, rfl, rfl⟩
      | stopInside drawn' inside =>
          obtain rfl := drawn.unique drawn'
          obtain ⟨-, flow_eq, -⟩ := ih_inside inside
          contradiction
  | stopInside drawn _ ih_inside =>
      cases expands' with
      | plain not_special => simp [drawn.commandKind?_eq] at not_special
      | stop stops => simp [drawn.commandKind?_eq] at stops
      | included drawn' inside =>
          obtain rfl := drawn.unique drawn'
          obtain ⟨-, flow_eq, -⟩ := ih_inside inside
          contradiction
      | stopInside drawn' inside =>
          obtain rfl := drawn.unique drawn'
          exact ih_inside inside

namespace Build

variable {expansion : Expansion} {token : Token} {draft after : Draft} {flow : Flow}

theorem walk_cons (expansion : Expansion) (token : Token) (tokens : List Token) (draft : Draft) :
    walk expansion (token :: tokens) draft =
      match accept expansion token draft with
      | .error failure => .error failure
      | .ok (.goOn, draft) => walk expansion tokens draft
      | .ok (.stop, draft) => .ok (.stop, draft) := by
  rw [walk]
  rcases accept expansion token draft with failure | ⟨_ | _, draft⟩ <;> rfl

theorem walk_append (expansion : Expansion) (front back : List Token) (draft : Draft) :
    walk expansion (front ++ back) draft =
      match walk expansion front draft with
      | .error failure => .error failure
      | .ok (.goOn, draft) => walk expansion back draft
      | .ok (.stop, draft) => .ok (.stop, draft) := by
  induction front generalizing draft with
  | nil => rfl
  | cons token front ih =>
      rw [List.cons_append, walk_cons, walk_cons]
      rcases accept expansion token draft with failure | ⟨_ | _, draft⟩
      · rfl
      · exact ih draft
      · rfl

/-- What every token of a kind keeps is kept by a walk through tokens of the kind. -/
theorem walk_keeps {allowed : Token → Prop} (holds : Flow → Draft → List Token → Prop)
    (keeps : ∀ {token tokens draft flow after}, allowed token →
      accept expansion token draft = .ok (flow, after) → holds .goOn draft (token :: tokens) →
        holds flow after tokens)
    (stopped : ∀ {draft tokens}, holds .stop draft tokens → holds .stop draft [])
    {tokens : List Token} (all_allowed : ∀ token ∈ tokens, allowed token)
    (walked : walk expansion tokens draft = .ok (flow, after)) (begins : holds .goOn draft tokens) :
    holds flow after [] := by
  induction tokens generalizing draft with
  | nil =>
      cases walked
      exact begins
  | cons token tokens ih =>
      obtain ⟨here, behind⟩ := List.forall_mem_cons.mp all_allowed
      rw [walk_cons] at walked
      rcases accepted : accept expansion token draft with failure | ⟨flow', middle⟩
      · simp [accepted] at walked
      rw [accepted] at walked
      have kept := keeps here accepted begins
      cases flow' with
      | goOn => exact ih behind walked kept
      | stop =>
          cases walked
          exact stopped kept

/-- Only an include directive asks how includes are carried out. -/
theorem accept_congr (other : Expansion)
    (not_include : token.kind.commandKind? ≠ some .includeFile) :
    accept expansion token draft = accept other token draft := by
  unfold accept
  split <;> try rfl
  rename_i command kind_eq
  rw [kind_eq] at not_include
  unfold perform
  split <;> try rfl
  rename_i include_eq
  exact (not_include (congrArg some include_eq)).elim

theorem accept_include {command : Command} (kind_eq : token.kind = .command command)
    (include_eq : command.kind = .includeFile) :
    accept expansion token draft = expansion command token.start draft := by
  simp only [accept, kind_eq, perform, include_eq]

@[simp]
theorem bindings_close (draft : Draft) (repeatCount : Nat) (separator : Option Position) :
    (draft.close repeatCount separator).bindings = draft.bindings := by
  unfold Draft.close
  dsimp only
  split
  · rfl
  · split <;> rfl

/-- What a token other than an include directive makes of a draft, and whether the walk goes on. -/
inductive Accepts (token : Token) (draft : Draft) : Flow → Draft → Prop
  | literal : token.kind.isLiteral = true →
      Accepts token draft .goOn
        { draft with pending := draft.pending.appendLiteral token.start token.stop token.text }
  | value {name value : String} : token.kind = .reference name →
      draft.bindings.resolve name token.start = .ok value →
        Accepts token draft .goOn
          { draft with pending := draft.pending.appendValue token.start token.stop value }
  | separator {repeatCount : Nat} : token.kind = .separator repeatCount →
      Accepts token draft .goOn (draft.close repeatCount (some token.start))
  | list {command : Command} : token.kind = .command command → command.kind = .list →
      Accepts token draft .goOn (draft.announce draft.pending.text)
  | listVar {command : Command} : token.kind = .command command → command.kind = .listVar →
      Accepts token draft .goOn (draft.announce draft.bindings.listing)
  | reset {command : Command} : token.kind = .command command → command.kind = .reset →
      Accepts token draft .goOn { draft with pending := {} }
  | quit {command : Command} : token.kind = .command command → command.kind = .quit →
      Accepts token draft .stop draft
  | exit {command : Command} : token.kind = .command command → command.kind = .exit →
      Accepts token draft .stop (draft.close 1 none)
  /-- Other commands decide about what is to come. -/
  | setting {command : Command} {after : Draft} : token.kind = .command command →
      command.kind ∉ [.includeFile, .list, .listVar, .reset, .quit, .exit] →
        after.bindings = draft.bindings.after token → after.pending = draft.pending →
          after.batches = draft.batches → after.preamble = draft.preamble →
            Accepts token draft .goOn after

theorem accepts_of_perform {command : Command} (kind_eq : token.kind = .command command)
    (not_include : command.kind ≠ .includeFile)
    (performed : perform expansion command token.start draft = .ok (flow, after)) :
    Accepts token draft flow after := by
  have after_eq := Variable.Table.after_of_ne draft.bindings kind_eq
  unfold perform at performed
  cases name_eq : command.kind with
  | includeFile => exact (not_include name_eq).elim
  | list =>
      rw [name_eq] at performed
      cases performed
      exact .list kind_eq name_eq
  | listVar =>
      rw [name_eq] at performed
      cases performed
      exact .listVar kind_eq name_eq
  | reset =>
      rw [name_eq] at performed
      cases performed
      exact .reset kind_eq name_eq
  | quit =>
      rw [name_eq] at performed
      cases performed
      exact .quit kind_eq name_eq
  | exit =>
      rw [name_eq] at performed
      cases performed
      exact .exit kind_eq name_eq
  | setVar =>
      rw [name_eq] at performed
      obtain ⟨⟨name, value⟩, assigned, rest⟩ := ok_of_bind performed
      cases value <;> cases rest <;>
        exact .setting kind_eq (by simp [name_eq])
          (by simp [Variable.Table.after, kind_eq, name_eq, assigned]) rfl rfl rfl
  | onError =>
      rw [name_eq] at performed
      dsimp only at performed
      split at performed <;> cases performed
      exact .setting kind_eq (by simp [name_eq]) (after_eq (by simp [name_eq])).symm rfl rfl rfl
  | connect | out | error | perfTrace =>
      rw [name_eq] at performed
      obtain ⟨target, -, rest⟩ := ok_of_bind performed
      cases rest
      exact .setting kind_eq (by simp [name_eq]) (after_eq (by simp [name_eq])).symm rfl rfl rfl

theorem accepts_of_accept (not_include : token.kind.commandKind? ≠ some .includeFile)
    (accepted : accept expansion token draft = .ok (flow, after)) :
    Accepts token draft flow after := by
  unfold accept at accepted
  cases kind_eq : token.kind with
  | text | quotedString | quotedIdentifier | lineComment | blockComment =>
      rw [kind_eq] at accepted
      cases accepted
      exact .literal (by rw [kind_eq]; rfl)
  | reference name =>
      rw [kind_eq] at accepted
      obtain ⟨value, value_eq, rest⟩ := ok_of_bind accepted
      cases rest
      exact .value kind_eq value_eq
  | separator repeatCount =>
      rw [kind_eq] at accepted
      cases accepted
      exact .separator kind_eq
  | command command =>
      rw [kind_eq] at accepted not_include
      have include_ne : command.kind ≠ .includeFile := fun eq => not_include (congrArg some eq)
      exact accepts_of_perform kind_eq include_ne accepted

/-- What a token does to the variables, and which tokens end the script. -/
theorem Accepts.effect (accepts : Accepts token draft flow after) :
    after.bindings = draft.bindings.after token ∧
      (flow = .stop ↔ token.kind.commandKind? ∈ [some .quit, some .exit]) := by
  cases accepts with
  | literal is_literal =>
      cases kind_eq : token.kind <;>
        simp_all [TokenKind.isLiteral, Variable.Table.after, TokenKind.commandKind?]
  | value kind_eq | separator kind_eq =>
      simp [Variable.Table.after, TokenKind.commandKind?, kind_eq]
  | list kind_eq name_eq | listVar kind_eq name_eq | reset kind_eq name_eq | quit kind_eq name_eq
  | exit kind_eq name_eq =>
      rw [Variable.Table.after_of_ne draft.bindings kind_eq (by simp [name_eq])]
      simp [Draft.announce, TokenKind.commandKind?, kind_eq, name_eq]
  | setting kind_eq other bindings_eq =>
      refine ⟨bindings_eq, ?_⟩
      simp_all [TokenKind.commandKind?]

theorem accept_effect (not_include : token.kind.commandKind? ≠ some .includeFile)
    (accepted : accept expansion token draft = .ok (flow, after)) :
    after.bindings = draft.bindings.after token ∧
      (flow = .stop ↔ token.kind.commandKind? ∈ [some .quit, some .exit]) :=
  (accepts_of_accept not_include accepted).effect

variable {resolver : Resolver} {limit depth : Nat} {stack : List String} {tokens : List Token}

/-- An include directive that is carried out walks through the tokens it draws in. -/
theorem included_of_expand {command : Command} (kind_eq : token.kind = .command command)
    (include_eq : command.kind = .includeFile)
    (expanded : expand resolver limit depth stack command token.start draft = .ok (flow, after)) :
    ∃ deeper inner inside, depth = deeper + 1 ∧ Included resolver draft.bindings token inside ∧
      walk (expand resolver limit deeper inner) inside draft = .ok (flow, after) := by
  cases depth with
  | zero =>
      obtain ⟨path, -, refused⟩ := ok_of_bind expanded
      cases refused
  | succ deeper =>
      obtain ⟨path, path_eq, found⟩ := ok_of_bind expanded
      cases file_eq : resolver path token.start.file with
      | error failure => simp [file_eq, throw, throwThe, MonadExceptOf.throw] at found
      | ok file =>
          rw [file_eq] at found
          dsimp only at found
          split at found
          · cases found
          · obtain ⟨inside, tokens_eq, walked⟩ := ok_of_bind found
            exact ⟨deeper, _, inside, rfl, .intro kind_eq include_eq path_eq file_eq tokens_eq,
              walked⟩

/-- A walk that succeeds walks through the expansion of its tokens. -/
theorem expands_of_walk
    (walked : walk (expand resolver limit depth stack) tokens draft = .ok (flow, after)) :
    ∃ flat, Expands resolver draft.bindings tokens flat flow after.bindings ∧
      ∀ other, walk other flat draft = .ok (flow, after) := by
  induction depth using Nat.strongRecOn generalizing stack tokens draft flow after with
  | ind depth ih_depth =>
      induction tokens generalizing draft with
      | nil =>
          cases walked
          exact ⟨[], .nil, fun _ => rfl⟩
      | cons token tokens ih =>
          rw [walk_cons] at walked
          rcases accepted : accept (expand resolver limit depth stack) token draft with
            failure | ⟨flow', middle⟩
          · simp [accepted] at walked
          rw [accepted] at walked
          by_cases is_include : token.kind.commandKind? = some .includeFile
          · obtain ⟨command, kind_eq, include_eq⟩ := command_of_commandKind? is_include
            rw [accept_include kind_eq include_eq] at accepted
            obtain ⟨deeper, inner, inside, rfl, drawn, walked_inside⟩ :=
              included_of_expand kind_eq include_eq accepted
            obtain ⟨front, expands_front, front_walk⟩ :=
              ih_depth deeper (Nat.lt_succ_self deeper) walked_inside
            cases flow' with
            | goOn =>
                obtain ⟨back, expands_back, back_walk⟩ := ih walked
                refine ⟨front ++ back, .included drawn expands_front expands_back, fun other => ?_⟩
                rw [walk_append, front_walk other]
                exact back_walk other
            | stop =>
                cases walked
                exact ⟨front, .stopInside drawn expands_front, front_walk⟩
          · obtain ⟨bindings_eq, stops_iff⟩ := accept_effect is_include accepted
            cases flow' with
            | goOn =>
                obtain ⟨flat, expands, flat_walk⟩ := ih walked
                rw [bindings_eq] at expands
                refine ⟨token :: flat, .plain ?_ expands, fun other => ?_⟩
                · have goes_on : ¬token.kind.commandKind? ∈ [some .quit, some .exit] :=
                    fun stops => by simpa using stops_iff.mpr stops
                  exact List.not_mem_cons_of_ne_of_not_mem is_include goes_on
                · rw [walk_cons, accept_congr _ is_include, accepted]
                  exact flat_walk other
            | stop =>
                cases walked
                have stops := stops_iff.mp rfl
                rw [bindings_eq, Variable.Table.after_of_stop stops]
                refine ⟨[token], .stop stops, fun other => ?_⟩
                rw [walk_cons, accept_congr _ is_include, accepted]

end Build

end SqlScript
