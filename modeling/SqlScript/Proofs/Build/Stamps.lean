import SqlScript.Proofs.Build.Closings
import SqlScript.Proofs.Build.Listings

/-!
# Stamps of built scripts

What becomes of the script if a batch fails, and the server the batch is run on, are settled at the
moment the batch is closed.  They are told by the commands in front of that place in the expanded
script, in whatever file these stand (`Stamp.ofTokens`).  Nothing is settled when the text of a
batch begins.
-/

namespace SqlScript

/-- What a token settles about batches that fail. -/
def Token.errorAction? (token : Token) : Option ErrorAction :=
  match token.kind with
  | .command command =>
      if command.kind = .onError then ErrorAction.ofArgument? command.arguments else none
  | _ => none

/-- The server that a token names if the variables have the values of `bindings`. -/
def Token.connectTarget? (bindings : Variable.Table) (token : Token) : Option String :=
  match token.kind with
  | .command command =>
      if command.kind = .connect then
        (command.requiredArgument bindings "missing server name").toOption
      else none
  | _ => none

/-- The variables behind a row of tokens. -/
def Variable.Table.afterAll (bindings : Variable.Table) (tokens : List Token) : Variable.Table :=
  tokens.foldl after bindings

/-- The servers that a row of tokens names. -/
def connectTargets : (bindings : Variable.Table) → List Token → List String
  | _, [] => []
  | bindings, token :: tokens =>
      (token.connectTarget? bindings).toList ++ connectTargets (bindings.after token) tokens

theorem connectTargets_concat (bindings : Variable.Table) (tokens : List Token) (token : Token) :
    connectTargets bindings (tokens ++ [token]) =
      connectTargets bindings tokens ++
        (token.connectTarget? (bindings.afterAll tokens)).toList := by
  induction tokens generalizing bindings with
  | nil => simp [connectTargets, Variable.Table.afterAll]
  | cons first tokens ih =>
      rw [List.cons_append, connectTargets, connectTargets, ih, List.append_assoc]
      rfl

/-- What a batch is stamped with when it is closed. -/
structure Stamp where
  errorAction : ErrorAction
  connectTarget : Option String

namespace Stamp

/-- The stamp behind `tokens`: the last action and the last server they settle. -/
def ofTokens (options : BuildOptions) (bindings : Variable.Table) (tokens : List Token) :
    Stamp where
  errorAction :=
    (tokens.filterMap Token.errorAction?).getLast?.getD options.defaultErrorAction
  connectTarget := (connectTargets bindings tokens).getLast?

/-- The stamp with what one more token settles. -/
def after (stamp : Stamp) (bindings : Variable.Table) (token : Token) : Stamp where
  errorAction := token.errorAction?.getD stamp.errorAction
  connectTarget := (token.connectTarget? bindings).or stamp.connectTarget

/-- The stamp with what more tokens settle. -/
def afterAll (stamp : Stamp) (bindings : Variable.Table) (tokens : List Token) : Stamp where
  errorAction := (tokens.filterMap Token.errorAction?).getLast?.getD stamp.errorAction
  connectTarget := (connectTargets bindings tokens).getLast?.or stamp.connectTarget

theorem afterAll_concat (stamp : Stamp) (bindings : Variable.Table) (tokens : List Token)
    (token : Token) :
    stamp.afterAll bindings (tokens ++ [token]) =
      (stamp.afterAll bindings tokens).after (bindings.afterAll tokens) token := by
  simp only [afterAll, after, mk.injEq]
  constructor
  · rw [List.filterMap_append, List.getLast?_append]
    cases token_eq : token.errorAction? <;> simp [token_eq]
  · rw [connectTargets_concat, List.getLast?_append]
    cases token.connectTarget? (bindings.afterAll tokens) <;> rfl

end Stamp

/-- The stamp of a batch. -/
def Batch.stamp (batch : Batch) : Stamp where
  errorAction := batch.errorAction
  connectTarget := batch.connectTarget

namespace Draft

/-- The stamp of a batch that is closed now. -/
def stamp (draft : Draft) : Stamp where
  errorAction := draft.errorAction
  connectTarget := draft.connectTarget

@[simp]
theorem stamp_close (draft : Draft) (repeatCount : Nat) (separator : Option Position) :
    (draft.close repeatCount separator).stamp = draft.stamp := by
  unfold close
  dsimp only
  split
  · rfl
  · split <;> rfl

@[simp]
theorem outputTargets_close (draft : Draft) (repeatCount : Nat)
    (separator : Option Position) :
    (draft.close repeatCount separator).outputTargets = draft.outputTargets := by
  unfold close
  dsimp only
  split
  · rfl
  · split <;> rfl

end Draft

/-- Where in an expanded script a batch that is run `repeatCount` times is closed: at a separator
with this count, at the command that closes the last batch, or at the end. -/
inductive Closing (flow : Flow) : (behind : List Token) → (repeatCount : Nat) → Prop
  | separator {token : Token} {behind : List Token} {repeatCount : Nat} :
      token.kind = .separator repeatCount → Closing flow (token :: behind) repeatCount
  | exit {token : Token} {behind : List Token} :
      token.kind.commandKind? = some .exit → Closing flow (token :: behind) 1
  | ending : flow = .goOn → Closing flow [] 1

/-- The batch is closed between `before` and `behind`, where the tokens of `before` are taken in
behind a draft. -/
structure Batch.ClosedBehind (draft : Draft) (flow : Flow) (before behind : List Token)
    (batch : Batch) : Prop where
  index_eq : batch.index = draft.batches.size + before.countP fun token => token.kind.isSeparator
  closing : Closing flow behind batch.repeatCount
  stamp_eq : batch.stamp = draft.stamp.afterAll draft.bindings before

namespace Build

variable {expansion : Expansion} {bindings : Variable.Table} {token : Token}
  {before tokens flat : List Token} {initial draft after : Draft} {flow flow' : Flow}

/-- Only two commands settle anything. -/
theorem Stamp.after_of_other {stamp : Stamp}
    (other : token.kind.commandKind? ∉ [some .onError, some .connect]) :
    stamp.after bindings token = stamp := by
  cases kind_eq : token.kind with
  | command command =>
      rw [kind_eq] at other
      simp only [TokenKind.commandKind?, List.mem_cons, Option.some.injEq, List.not_mem_nil,
        or_false, not_or] at other
      simp [Stamp.after, Token.errorAction?, Token.connectTarget?, kind_eq, other]
  | _ => simp [Stamp.after, Token.errorAction?, Token.connectTarget?, kind_eq]

/-- Other commands settle nothing at all. -/
theorem settled_perform {command : Command} {position : Position}
    (other : command.kind ∉ [.includeFile, .onError, .connect, .out, .error, .perfTrace])
    (performed : perform expansion command position draft = .ok (flow, after)) :
    after.stamp = draft.stamp ∧ after.outputTargets = draft.outputTargets := by
  unfold perform at performed
  cases name_eq : command.kind with
  | includeFile | onError | connect | out | error | perfTrace => simp [name_eq] at other
  | list | listVar | reset | quit =>
      rw [name_eq] at performed
      cases performed
      exact ⟨rfl, rfl⟩
  | exit =>
      rw [name_eq] at performed
      cases performed
      exact ⟨draft.stamp_close 1 none, draft.outputTargets_close 1 none⟩
  | setVar =>
      rw [name_eq] at performed
      obtain ⟨⟨name, value⟩, -, rest⟩ := ok_of_bind performed
      cases value <;> cases rest <;> exact ⟨rfl, rfl⟩

theorem stamp_perform {command : Command} (kind_eq : token.kind = .command command)
    (not_include : command.kind ≠ .includeFile)
    (performed : perform expansion command token.start draft = .ok (flow, after)) :
    after.stamp = draft.stamp.after draft.bindings token := by
  have of_other (other : command.kind ∉ [.onError, .connect]) (same : after.stamp = draft.stamp) :
      after.stamp = draft.stamp.after draft.bindings token := by
    rw [same, Stamp.after_of_other]
    simpa [kind_eq, TokenKind.commandKind?] using other
  have performed_as := performed
  unfold perform at performed_as
  cases name_eq : command.kind with
  | includeFile => exact (not_include name_eq).elim
  | onError =>
      rw [name_eq] at performed_as
      dsimp only at performed_as
      split at performed_as
      · rename_i action action_eq
        cases performed_as
        simp [Draft.stamp, Stamp.after, Token.errorAction?, Token.connectTarget?, kind_eq, name_eq,
          action_eq]
      · cases performed_as
  | connect =>
      rw [name_eq] at performed_as
      obtain ⟨target, target_eq, rest⟩ := ok_of_bind performed_as
      cases rest
      simp [Draft.stamp, Stamp.after, Token.errorAction?, Token.connectTarget?, kind_eq, name_eq,
        target_eq, Except.toOption]
  | out | error | perfTrace =>
      rw [name_eq] at performed_as
      obtain ⟨target, -, rest⟩ := ok_of_bind performed_as
      cases rest
      exact of_other (by simp [name_eq]) rfl
  | _ => exact of_other (by simp [name_eq]) (settled_perform (by simp [name_eq]) performed).1

/-- A token changes the stamp by what it settles. -/
theorem stamp_accept (not_include : token.kind.commandKind? ≠ some .includeFile)
    (accepted : accept expansion token draft = .ok (flow, after)) :
    after.stamp = draft.stamp.after draft.bindings token := by
  have accepts := accepts_of_accept not_include accepted
  have of_other (other : token.kind.commandKind? = none) (same : after.stamp = draft.stamp) :
      after.stamp = draft.stamp.after draft.bindings token := by
    rw [same, Stamp.after_of_other (by simp [other])]
  cases kind_eq : token.kind with
  | command command =>
      have include_ne : command.kind ≠ .includeFile := fun include_eq =>
        not_include (by rw [kind_eq, TokenKind.commandKind?, include_eq])
      simp only [accept, kind_eq] at accepted
      exact stamp_perform kind_eq include_ne accepted
  | _ =>
      cases accepts with
      | literal | value => exact of_other (by rw [kind_eq]; rfl) rfl
      | separator => exact of_other (by rw [kind_eq]; rfl) (draft.stamp_close _ _)
      | _ => simp_all

/-- The draft has come behind `before`, a row of tokens that are taken in behind `initial`. -/
structure Stands (initial : Draft) (before : List Token) (draft : Draft) : Prop where
  bindings_eq : draft.bindings = initial.bindings.afterAll before
  size_eq : draft.batches.size =
    initial.batches.size + before.countP fun token => token.kind.isSeparator
  stamp_eq : draft.stamp = initial.stamp.afterAll initial.bindings before

/-- The batches closed behind `initial` have their places in the expanded text. -/
def AllClosed (initial : Draft) (flat : List Token) (flow : Flow) (draft : Draft) : Prop :=
  ∀ (index : Nat) (batch : Batch), draft.batches[index]? = some batch →
    initial.batches.size ≤ index → batch.index = index ∧
      ∃ before behind, flat = before ++ behind ∧ batch.ClosedBehind initial flow before behind

/-- What holds while an expanded text is walked through; at a command that ends the script only the
batches count. -/
def ClosesAt (initial : Draft) (flat : List Token) (flow : Flow) :
    Flow → Draft → List Token → Prop
  | .goOn, draft, behind =>
      AllClosed initial flat flow draft ∧
        ∃ before, flat = before ++ behind ∧ Stands initial before draft
  | .stop, draft, _ => AllClosed initial flat flow draft

theorem allClosed_close {behind : List Token} {repeatCount : Nat} {separator : Option Position}
    (closed : AllClosed initial flat flow draft) (split : flat = before ++ behind)
    (stands : Stands initial before draft) (closing : Closing flow behind repeatCount) :
    AllClosed initial flat flow (draft.close repeatCount separator) := by
  intro index batch found later
  rcases draft.closed_of_close repeatCount separator with
    ⟨same, -⟩ | ⟨last, pushed, is_closed, repeat_eq, action_eq, target_eq⟩
  · rw [same] at found
    exact closed index batch found later
  · have stamp_eq : last.stamp = draft.stamp := by
      rw [Batch.stamp, action_eq, target_eq, Draft.stamp]
    rw [pushed, Array.getElem?_push] at found
    split at found
    · rename_i here
      cases found
      exact ⟨is_closed.index_eq.trans here.symm, before, behind, split,
        is_closed.index_eq.trans stands.size_eq, repeat_eq ▸ closing,
        stamp_eq.trans stands.stamp_eq⟩
    · exact closed index batch found later

/-- Behind one more token the draft has come one token further. -/
theorem stands_accept (not_include : token.kind.commandKind? ≠ some .includeFile)
    (accepted : accept expansion token draft = .ok (.goOn, after))
    (stands : Stands initial before draft) : Stands initial (before ++ [token]) after where
  bindings_eq := by
    rw [(accept_effect not_include accepted).1, stands.bindings_eq, Variable.Table.afterAll,
      Variable.Table.afterAll, List.foldl_append]
    rfl
  size_eq := by
    rw [List.countP_append, ← Nat.add_assoc, ← stands.size_eq]
    rcases batches_accept not_include accepted with ⟨other, same⟩ | ⟨separates, batch, pushed⟩
    · simp [same, other]
    · simp [pushed, separates]
  stamp_eq := by
    rw [stamp_accept not_include accepted, stands.stamp_eq, stands.bindings_eq,
      Stamp.afterAll_concat]

theorem closesAt_accept (not_include : token.kind.commandKind? ≠ some .includeFile)
    (accepted : accept expansion token draft = .ok (flow', after))
    (closes : ClosesAt initial flat flow .goOn draft (token :: tokens)) :
    ClosesAt initial flat flow flow' after tokens := by
  obtain ⟨closed, before, split, stands⟩ := closes
  have onward (closed : AllClosed initial flat flow after) :
      ClosesAt initial flat flow flow' after tokens := by
    cases flow' with
    | goOn =>
        exact ⟨closed, before ++ [token], by simp [split],
          stands_accept not_include accepted stands⟩
    | stop => exact closed
  cases accepts_of_accept not_include accepted with
  | literal | value | list | listVar | reset | quit => exact onward closed
  | separator kind_eq => exact onward (allClosed_close closed split stands (.separator kind_eq))
  | exit kind_eq name_eq =>
      have exits : token.kind.commandKind? = some .exit := by
        rw [kind_eq, TokenKind.commandKind?, name_eq]
      exact onward (allClosed_close closed split stands (.exit exits))
  | setting _ _ _ _ batches_eq =>
      refine onward ?_
      rw [AllClosed, batches_eq]
      exact closed

/-- The batches that a script has from a walk through an expanded text on have their places in
it. -/
theorem closedBehind_of_walk {script : Script}
    (not_include : ∀ token ∈ flat, token.kind.commandKind? ≠ some .includeFile)
    (walked : walk expansion flat draft = .ok (flow, after))
    (finished : scriptOf (.ok (flow, after)) = .ok script) {index : Nat} {batch : Batch}
    (found : script.batches[index]? = some batch) (later : draft.batches.size ≤ index) :
    batch.index = index ∧
      ∃ before behind, flat = before ++ behind ∧ batch.ClosedBehind draft flow before behind := by
  have begins : ClosesAt draft flat flow .goOn draft flat := by
    refine ⟨fun index batch found later => ?_, [], rfl, rfl, rfl, rfl⟩
    rw [Array.getElem?_eq_none later] at found
    contradiction
  have closes := walk_keeps (ClosesAt draft flat flow) closesAt_accept id not_include walked begins
  obtain ⟨last, closed, rfl⟩ : ∃ last, AllClosed draft flat flow last ∧ last.finish = script := by
    cases flow with
    | goOn =>
        obtain ⟨closed, before, split, stands⟩ := closes
        exact ⟨after.close 1 none, allClosed_close closed split stands (.ending rfl),
          Except.ok.inj finished⟩
    | stop => exact ⟨after, closes, Except.ok.inj finished⟩
  exact closed index batch (kept_of_leading last.batches_prefix_finish found) later

/-- A script that is made of tokens behind a draft is made of their expansion. -/
theorem expands_of_scriptOf {resolver : Resolver} {limit : Nat} {script : Script}
    (made : scriptOf (walk (Build.expansion resolver limit []) tokens draft) = .ok script) :
    ∃ flat flow after, Expands resolver draft.bindings tokens flat flow after.bindings ∧
      scriptOf (.ok (flow, after)) = .ok script ∧
        ∀ other, walk other flat draft = .ok (flow, after) := by
  rcases walked : walk (Build.expansion resolver limit []) tokens draft with
    failure | ⟨flow, after⟩
  · rw [walked] at made
    contradiction
  · rw [walked] at made
    obtain ⟨flat, expands, flat_walk⟩ := expands_of_walk walked
    exact ⟨flat, flow, after, expands, made, flat_walk⟩

end Build

end SqlScript
