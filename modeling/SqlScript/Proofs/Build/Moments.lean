import Mathlib.Logic.Relation
import SqlScript.Proofs.Build.Expansion

/-!
# Moments of a walk

A walk through a script goes from moment to moment.  At each moment some files are being expanded,
one inside the other, and each but the innermost waits with the tokens behind its directive.  The
moments have no count of the levels that are left: a directive compares the number of files that
are being expanded with the limit.  A walk that counts passes through these moments and ends.
-/

namespace SqlScript

/-- The command of an include directive. -/
def TokenKind.inclusion? : TokenKind → Option Command
  | command written => if written.kind = .includeFile then some written else none
  | _ => none

theorem TokenKind.inclusion?_eq_some_iff {kind : TokenKind} {command : Command} :
    kind.inclusion? = some command ↔ kind = .command command ∧ command.kind = .includeFile := by
  cases kind with
  | command written =>
      simp only [inclusion?, Option.ite_none_right_eq_some, Option.some.injEq,
        TokenKind.command.injEq]
      constructor
      · rintro ⟨include_eq, rfl⟩
        exact ⟨rfl, include_eq⟩
      · rintro ⟨rfl, include_eq⟩
        exact ⟨include_eq, rfl⟩
  | _ => simp [inclusion?]

theorem TokenKind.inclusion?_eq_none_iff {kind : TokenKind} :
    kind.inclusion? = none ↔ kind.commandKind? ≠ some .includeFile := by
  cases kind <;> simp [inclusion?, commandKind?]

namespace Build

/-- The file that an include directive draws in while the files of `stack` are being expanded, with
its tokens. -/
def drawIn (resolver : Resolver) (limit : Nat) (stack : List String) (bindings : Variable.Table)
    (command : Command) (position : Position) : Except ParseError (String × List Token) := do
  let path ← command.requiredArgument bindings "missing file path"
  if limit ≤ stack.length then
    throw { cause := .includeDepthExceeded limit, position }
  else
    match resolver path position.file with
    | .error failure => throw { cause := .includeNotFound path failure.message, position }
    | .ok file =>
        if stack.contains file.path then
          throw { cause := .includeCycle file.path, position }
        else
          let tokens ← tokenize (.included file.path) file.text
          return (file.path, tokens)

/-- What is drawn in is the text of a file that is not yet being expanded, below the limit. -/
theorem file_of_drawIn {resolver : Resolver} {limit : Nat} {stack : List String}
    {bindings : Variable.Table} {command : Command} {position : Position} {path : String}
    {tokens : List Token}
    (drawn : drawIn resolver limit stack bindings command position = .ok (path, tokens)) :
    stack.length < limit ∧ path ∉ stack ∧ ∃ asked file, resolver asked position.file = .ok file ∧
      file.path = path ∧ tokenize (.included path) file.text = .ok tokens := by
  obtain ⟨asked, -, found⟩ := ok_of_bind drawn
  split at found
  · contradiction
  rename_i level
  split at found
  · contradiction
  rename_i file file_eq
  split at found
  · contradiction
  rename_i fresh
  obtain ⟨inside, inside_eq, returned⟩ := ok_of_bind found
  cases returned
  refine ⟨Nat.lt_of_not_le level, ?_, asked, file, file_eq, rfl, inside_eq⟩
  exact fun member => fresh (List.contains_iff_mem.mpr member)

/-- How a directive is carried out while the files of `stack` are being expanded. -/
def expansion (resolver : Resolver) (limit : Nat) (stack : List String) : Expansion :=
  expand resolver limit (limit - stack.length) stack

/-- To carry out a directive is to walk through the tokens that it draws in. -/
theorem expansion_eq (resolver : Resolver) (limit : Nat) (stack : List String) (command : Command)
    (position : Position) (draft : Draft) :
    expansion resolver limit stack command position draft =
      match drawIn resolver limit stack draft.bindings command position with
      | .error failure => .error failure
      | .ok (path, tokens) => walk (expansion resolver limit (path :: stack)) tokens draft := by
  unfold drawIn
  cases path_eq : command.requiredArgument draft.bindings "missing file path" with
  | error failure =>
      unfold expansion
      cases limit - stack.length <;> rw [expand, path_eq] <;> rfl
  | ok path =>
      by_cases too_deep : limit ≤ stack.length
      · rw [expansion, Nat.sub_eq_zero_of_le too_deep, expand, path_eq]
        simp only [bind, Except.bind, if_pos too_deep]
        rfl
      · obtain ⟨depth, depth_eq⟩ : ∃ depth, limit - stack.length = depth + 1 :=
          Nat.exists_eq_succ_of_ne_zero (by omega)
        have depth_left (path : String) : limit - (path :: stack).length = depth := by
          rw [List.length_cons]
          omega
        simp only [expansion, depth_left, depth_eq, expand, path_eq, bind, Except.bind,
          if_neg too_deep]
        cases resolver path position.file with
        | error failure => rfl
        | ok file =>
            dsimp only
            split
            · rfl
            · cases tokenize (.included file.path) file.text <;> rfl

/-- A walk, and `behind` after it unless it ends the script. -/
def followedBy (behind : Draft → Walk) : Walk → Walk
  | .error failure => .error failure
  | .ok (.goOn, draft) => behind draft
  | .ok (.stop, draft) => .ok (.stop, draft)

/-- A moment of a walk. -/
structure Moment where
  /-- The files that are being expanded, the innermost one first, each with the tokens behind its
  directive in the file around it. -/
  nested : List (String × List Token)
  /-- What is left of the innermost file. -/
  tokens : List Token
  draft : Draft

/-- What a moment leads to. -/
inductive Advance where
  | next (moment : Moment)
  | done (result : Walk)

namespace Moment

/-- The paths of the files that are being expanded. -/
def stack (moment : Moment) : List String :=
  moment.nested.map Prod.fst

/-- The file that tokens are taken from. -/
def file (moment : Moment) : SourceFile :=
  match moment.nested with
  | [] => .script
  | (path, _) :: _ => .included path

/-- Take in the next token, or leave the innermost file if it has none. -/
def advance (resolver : Resolver) (limit : Nat) (moment : Moment) : Advance :=
  match moment.tokens with
  | token :: rest =>
      match token.kind.inclusion? with
      | some command =>
          match drawIn resolver limit moment.stack moment.draft.bindings command token.start with
          | .error failure => .done (.error failure)
          | .ok (path, tokens) =>
              .next { moment with nested := (path, rest) :: moment.nested, tokens }
      | none =>
          match accept (expansion resolver limit moment.stack) token moment.draft with
          | .error failure => .done (.error failure)
          | .ok (.goOn, draft) => .next { moment with tokens := rest, draft }
          | .ok (.stop, draft) => .done (.ok (.stop, draft))
  | [] =>
      match moment.nested with
      | (_, outer) :: nested => .next { moment with nested, tokens := outer }
      | [] => .done (.ok (.goOn, moment.draft))

/-- The moments that a moment leads to. -/
def Reaches (resolver : Resolver) (limit : Nat) : Moment → Moment → Prop :=
  Relation.ReflTransGen fun moment next => moment.advance resolver limit = .next next

/-- Where the end of the innermost file, or of the walk, is reached. -/
def Arrives (resolver : Resolver) (limit : Nat) (moment : Moment) : Walk → Prop
  | .ok (.goOn, draft) => moment.Reaches resolver limit { moment with tokens := [], draft }
  | .ok (.stop, draft) => ∃ last, moment.Reaches resolver limit last ∧
      last.advance resolver limit = .done (.ok (.stop, draft))
  | .error failure => ∃ last, moment.Reaches resolver limit last ∧
      last.advance resolver limit = .done (.error failure)

variable {resolver : Resolver} {limit : Nat} {moment next last : Moment} {result : Walk}

theorem Arrives.append (reaches : moment.Reaches resolver limit next)
    (same_file : next.nested = moment.nested) (arrives : next.Arrives resolver limit result) :
    moment.Arrives resolver limit result := by
  match result with
  | .ok (.goOn, draft) =>
      have behind : next.Reaches resolver limit { moment with tokens := [], draft } := by
        rw [← same_file]
        exact arrives
      exact reaches.trans behind
  | .ok (.stop, _) | .error _ =>
      obtain ⟨last, behind, ends⟩ := arrives
      exact ⟨last, reaches.trans behind, ends⟩

/-- The walk through a file is followed by the walk through what stands behind its directive. -/
theorem Arrives.enter {path : String} {inside rest : List Token} {inner : Walk}
    {behind : Draft → Walk}
    (enters : moment.advance resolver limit =
      .next { moment with nested := (path, rest) :: moment.nested, tokens := inside })
    (arrives : Arrives resolver limit
      { moment with nested := (path, rest) :: moment.nested, tokens := inside } inner)
    (arrives_behind : ∀ draft,
      Arrives resolver limit { moment with tokens := rest, draft } (behind draft)) :
    moment.Arrives resolver limit (followedBy behind inner) := by
  match inner with
  | .ok (.goOn, draft) =>
      have leaves : advance resolver limit
          { nested := (path, rest) :: moment.nested, tokens := [], draft } =
            .next { moment with tokens := rest, draft } := rfl
      have reaches : moment.Reaches resolver limit { moment with tokens := rest, draft } :=
        .head enters (.tail arrives leaves)
      exact .append reaches rfl (arrives_behind draft)
  | .ok (.stop, _) | .error _ =>
      obtain ⟨last, reaches, ends⟩ := arrives
      exact ⟨last, .head enters reaches, ends⟩

/-- A walk through the tokens of the innermost file gets where the moments get. -/
theorem arrives_of_walk (moment : Moment) :
    moment.Arrives resolver limit
      (walk (expansion resolver limit moment.stack) moment.tokens moment.draft) := by
  obtain ⟨nested, tokens, draft⟩ := moment
  -- A directive leads one level deeper, and behind its file the walk goes on with fewer tokens.
  induction left : limit - nested.length using Nat.strongRecOn generalizing nested tokens draft with
  | ind levels ih_levels =>
      subst left
      induction tokens generalizing draft with
      | nil => exact .refl
      | cons token rest ih =>
          dsimp only [stack] at ih ⊢
          rw [walk_cons]
          cases inclusion : token.kind.inclusion? with
          | none =>
              rcases accepted : accept (expansion resolver limit (nested.map Prod.fst)) token draft
                with failure | ⟨_ | _, after⟩
              · exact ⟨_, .refl, by simp [advance, inclusion, stack, accepted]⟩
              · have step : advance resolver limit { nested, tokens := token :: rest, draft } =
                    .next { nested, tokens := rest, draft := after } := by
                  simp [advance, inclusion, stack, accepted]
                exact .append (.single step) rfl (ih after)
              · exact ⟨_, .refl, by simp [advance, inclusion, stack, accepted]⟩
          | some command =>
              obtain ⟨kind_eq, include_eq⟩ := TokenKind.inclusion?_eq_some_iff.mp inclusion
              rw [accept_include kind_eq include_eq, expansion_eq]
              rcases drawn : drawIn resolver limit (nested.map Prod.fst) draft.bindings command
                  token.start with failure | ⟨path, inside⟩
              · exact ⟨_, .refl, by simp [advance, inclusion, stack, drawn]⟩
              · have enters : advance resolver limit { nested, tokens := token :: rest, draft } =
                    .next { nested := (path, rest) :: nested, tokens := inside, draft } := by
                  simp [advance, inclusion, stack, drawn]
                have level := (file_of_drawIn drawn).1
                rw [List.length_map] at level
                have arrives := ih_levels (limit - (nested.length + 1)) (by omega)
                  ((path, rest) :: nested) inside draft rfl
                exact .enter enters arrives ih

/-- Where no file is left to return to, the walk ends. -/
theorem last_of_arrives (outermost : moment.nested = [])
    (arrives : moment.Arrives resolver limit result) :
    ∃ last, moment.Reaches resolver limit last ∧ last.advance resolver limit = .done result := by
  match result with
  | .ok (.goOn, draft) => exact ⟨_, arrives, by simp [advance, outermost]⟩
  | .ok (.stop, _) | .error _ => exact arrives

theorem eq_of_reaches (ends : moment.advance resolver limit = .done result)
    (reaches : moment.Reaches resolver limit next) : moment = next := by
  rcases Relation.ReflTransGen.cases_head reaches with rfl | ⟨beyond, step, -⟩
  · rfl
  · rw [ends] at step
    contradiction

/-- A walk comes to the same last moment from each of its moments. -/
theorem reaches_last (reaches : moment.Reaches resolver limit last)
    (ends : last.advance resolver limit = .done result)
    (passes : moment.Reaches resolver limit next) : next.Reaches resolver limit last := by
  have deterministic : Relator.RightUnique fun moment next : Moment =>
      moment.advance resolver limit = .next next := by
    intro moment next other next_eq other_eq
    exact Advance.next.inj (next_eq.symm.trans other_eq)
  rcases Relation.ReflTransGen.total_of_right_unique deterministic passes reaches with
    onward | backward
  · exact onward
  · rw [eq_of_reaches ends backward]
    exact .refl

/-- The ways in which a moment leads to another one. -/
inductive Moves (resolver : Resolver) (limit : Nat) : Moment → Moment → Prop
  | takes {nested : List (String × List Token)} {token : Token} {rest : List Token}
      {draft after : Draft} :
      token.kind.inclusion? = none →
        accept (expansion resolver limit (nested.map Prod.fst)) token draft = .ok (.goOn, after) →
          Moves resolver limit { nested, tokens := token :: rest, draft }
            { nested, tokens := rest, draft := after }
  | enters {nested : List (String × List Token)} {token : Token} {rest tokens : List Token}
      {draft : Draft} {command : Command} {path : String} :
      token.kind.inclusion? = some command →
        drawIn resolver limit (nested.map Prod.fst) draft.bindings command token.start =
            .ok (path, tokens) →
          Moves resolver limit { nested, tokens := token :: rest, draft }
            { nested := (path, rest) :: nested, tokens, draft }
  | leaves {nested : List (String × List Token)} {path : String} {outer : List Token}
      {draft : Draft} :
      Moves resolver limit { nested := (path, outer) :: nested, tokens := [], draft }
        { nested, tokens := outer, draft }

theorem moves_of_advance (step : moment.advance resolver limit = .next next) :
    Moves resolver limit moment next := by
  obtain ⟨nested, tokens, draft⟩ := moment
  cases tokens with
  | nil =>
      cases nested with
      | nil => cases step
      | cons frame nested =>
          cases step
          exact .leaves
  | cons token rest =>
      cases inclusion : token.kind.inclusion? with
      | none =>
          simp only [advance, inclusion] at step
          split at step
          · contradiction
          · rename_i after accepted
            cases step
            exact .takes inclusion accepted
          · contradiction
      | some command =>
          simp only [advance, inclusion] at step
          split at step
          · contradiction
          · rename_i path inside drawn
            cases step
            exact .enters inclusion drawn

/-- A walk fails at the next token. -/
theorem fails_at_token {failure : ParseError}
    (ends : moment.advance resolver limit = .done (.error failure)) :
    ∃ token rest, moment.tokens = token :: rest ∧
      (token.kind.inclusion? = none ∧
          accept (expansion resolver limit moment.stack) token moment.draft = .error failure ∨
        ∃ command, token.kind.inclusion? = some command ∧
          drawIn resolver limit moment.stack moment.draft.bindings command token.start =
            .error failure) := by
  obtain ⟨nested, tokens, draft⟩ := moment
  cases tokens with
  | nil => cases nested <;> cases ends
  | cons token rest =>
      refine ⟨token, rest, rfl, ?_⟩
      cases inclusion : token.kind.inclusion? with
      | none =>
          simp only [advance, inclusion] at ends
          split at ends
          · rename_i accepted
            cases ends
            exact .inl ⟨rfl, accepted⟩
          · contradiction
          · cases ends
      | some command =>
          simp only [advance, inclusion] at ends
          split at ends
          · rename_i drawn
            cases ends
            exact .inr ⟨command, rfl, drawn⟩
          · contradiction

/-- The moment before the first token. -/
def first (options : BuildOptions) (bindings : Variable.Table) (tokens : List Token) : Moment where
  nested := []
  tokens := tokens
  draft := Draft.start options bindings

end Moment

/-- The script that a walk results in. -/
def scriptOf : Walk → Except ParseError Script
  | .error failure => .error failure
  | .ok (.goOn, draft) => .ok (draft.close 1 none).finish
  | .ok (.stop, draft) => .ok draft.finish

theorem buildTokens_eq (resolver : Resolver) (options : BuildOptions) (bindings : Variable.Table)
    (tokens : List Token) :
    buildTokens resolver options bindings tokens =
      scriptOf (walk (expansion resolver options.maxIncludeDepth []) tokens
        (Draft.start options bindings)) := by
  change (walk (expansion resolver options.maxIncludeDepth []) tokens
    (Draft.start options bindings) >>= _) = _
  rcases walk (expansion resolver options.maxIncludeDepth []) tokens
    (Draft.start options bindings) with failure | ⟨_ | _, draft⟩ <;> rfl

/-- The script of a row of tokens is the result of the last moment. -/
theorem last_of_buildTokens (resolver : Resolver) (options : BuildOptions)
    (bindings : Variable.Table) (tokens : List Token) :
    ∃ last result,
      (Moment.first options bindings tokens).Reaches resolver options.maxIncludeDepth last ∧
        last.advance resolver options.maxIncludeDepth = .done result ∧
          buildTokens resolver options bindings tokens = scriptOf result := by
  have arrives : (Moment.first options bindings tokens).Arrives resolver options.maxIncludeDepth
      (walk (expansion resolver options.maxIncludeDepth []) tokens
        (Draft.start options bindings)) := Moment.arrives_of_walk _
  obtain ⟨last, reaches, ends⟩ := Moment.last_of_arrives rfl arrives
  exact ⟨last, _, reaches, ends, buildTokens_eq resolver options bindings tokens⟩

end Build
end SqlScript
