import SqlScript.Proofs.Build.Stamps

/-!
# Targets of built scripts

A script has one target for each kind of output, and it is the one that is named last in the whole
expanded script, wherever its batches are closed (`targets_of_build`).  A script that is made behind
a draft keeps the targets of the draft for which nothing else is named (`Script.Records`).
-/

namespace SqlScript

/-- The kinds of output that a script has a target for. -/
def OutputTargets.kinds : List CommandKind := [.out, .error, .perfTrace]

/-- The target for a kind of output. -/
def OutputTargets.target? (targets : OutputTargets) : CommandKind → Option String
  | .out => targets.out
  | .error => targets.error
  | .perfTrace => targets.perfTrace
  | _ => none

/-- The target that a token names in a command of a kind if the variables have the values of
`bindings`. -/
def Token.target? (kind : CommandKind) (bindings : Variable.Table) (token : Token) :
    Option String :=
  match token.kind with
  | .command command =>
      if command.kind = kind then
        (command.requiredArgument bindings "missing target").toOption
      else none
  | _ => none

/-- The targets that a row of tokens names in commands of a kind. -/
def namedTargets (kind : CommandKind) : (bindings : Variable.Table) → List Token → List String
  | _, [] => []
  | bindings, token :: tokens =>
      (token.target? kind bindings).toList ++ namedTargets kind (bindings.after token) tokens

/-- The draft in which a command has recorded its target. -/
def Draft.record (draft : Draft) (kind : CommandKind) (target : String) : Draft :=
  match kind with
  | .connect => { draft with connectTarget := some target }
  | .out => { draft with outputTargets := { draft.outputTargets with out := some target } }
  | .error => { draft with outputTargets := { draft.outputTargets with error := some target } }
  | .perfTrace =>
      { draft with outputTargets := { draft.outputTargets with perfTrace := some target } }
  | _ => draft

/-- What a script records for commands of a kind if `target` is recorded in front of `flat`, behind
`closed` batches.  For output it is the last target that is named, for batches the last server that
is named in front of the place where they are closed. -/
structure Script.Records (script : Script) (kind : CommandKind) (target : String) (closed : Nat)
    (bindings : Variable.Table) (flat : List Token) (flow : Flow) : Prop where
  output : kind ∈ OutputTargets.kinds →
    script.outputTargets.target? kind =
      some ((namedTargets kind bindings flat).getLast?.getD target)
  server : kind = .connect →
    ∀ (index : Nat) (batch : Batch), script.batches[index]? = some batch → closed ≤ index →
      ∃ before behind, flat = before ++ behind ∧ Closing flow behind batch.repeatCount ∧
        index = closed + before.countP (fun token => token.kind.isSeparator) ∧
          batch.connectTarget = some ((namedTargets .connect bindings before).getLast?.getD target)

/-- What a command is told of a missing argument does not matter where there is one. -/
theorem Command.toOption_requiredArgument (command : Command) (bindings : Variable.Table)
    (missing missing' : String) :
    (command.requiredArgument bindings missing).toOption =
      (command.requiredArgument bindings missing').toOption := by
  unfold requiredArgument
  cases bindings.substitute command.argumentsStart command.arguments.toList with
  | error failure => rfl
  | ok argument =>
      dsimp only [bind, Except.bind]
      split <;> rfl

theorem Token.connectTarget?_eq (bindings : Variable.Table) (token : Token) :
    token.connectTarget? bindings = token.target? .connect bindings := by
  unfold connectTarget? target?
  cases token.kind with
  | command command =>
      simp only [command.toOption_requiredArgument bindings "missing server name" "missing target"]
  | _ => rfl

/-- Servers are the targets of one kind of command. -/
theorem connectTargets_eq (bindings : Variable.Table) (tokens : List Token) :
    connectTargets bindings tokens = namedTargets .connect bindings tokens := by
  induction tokens generalizing bindings with
  | nil => rfl
  | cons token tokens ih => rw [connectTargets, namedTargets, ih, token.connectTarget?_eq]

namespace Flow.Covers

variable {token : Token} {row : List Token} {flow : Flow}

theorem tail (covers : flow.Covers (token :: row)) (goes_on : ¬token.kind.endsScript) :
    flow.Covers row := by
  cases flow with
  | goOn => exact fun other member => covers other (List.mem_cons_of_mem _ member)
  | stop =>
      obtain ⟨front, last, row_eq, ends, before⟩ := covers
      cases front with
      | nil =>
          obtain ⟨rfl, -⟩ := List.cons.inj row_eq
          contradiction
      | cons first front =>
          exact ⟨front, last, (List.cons.inj row_eq).2, ends, (List.forall_mem_cons.mp before).2⟩

theorem eq_nil (covers : flow.Covers (token :: row)) (ends : token.kind.endsScript) : row = [] := by
  cases flow with
  | goOn => exact absurd ends (covers token List.mem_cons_self)
  | stop =>
      obtain ⟨front, last, row_eq, -, before⟩ := covers
      cases front with
      | nil => exact (List.cons.inj row_eq).2
      | cons first front =>
          obtain ⟨rfl, -⟩ := List.cons.inj row_eq
          exact absurd ends (before token List.mem_cons_self)

end Flow.Covers

theorem Draft.target?_start (options : BuildOptions) (bindings : Variable.Table)
    (kind : CommandKind) : (start options bindings).outputTargets.target? kind = none := by
  cases kind <;> rfl

namespace Build

variable {inclusion : Expansion} {token : Token} {flat : List Token} {draft after : Draft}
  {flow : Flow} {kind : CommandKind} {script : Script}

theorem target?_perform {command : Command} (kind_eq : token.kind = .command command)
    (not_include : command.kind ≠ .includeFile)
    (performed : perform inclusion command token.start draft = .ok (flow, after))
    (output : kind ∈ OutputTargets.kinds) :
    after.outputTargets.target? kind =
      (token.target? kind draft.bindings).or (draft.outputTargets.target? kind) := by
  have of_other (other : command.kind ∉ OutputTargets.kinds)
      (same : after.outputTargets = draft.outputTargets) :
      after.outputTargets.target? kind =
        (token.target? kind draft.bindings).or (draft.outputTargets.target? kind) := by
    have kind_ne : command.kind ≠ kind := fun named => other (named ▸ output)
    simp [Token.target?, kind_eq, kind_ne, same]
  have performed_as := performed
  unfold perform at performed_as
  cases name_eq : command.kind with
  | includeFile => exact (not_include name_eq).elim
  | onError =>
      rw [name_eq] at performed_as
      dsimp only at performed_as
      split at performed_as <;> cases performed_as
      exact of_other (by simp [name_eq, OutputTargets.kinds]) rfl
  | connect =>
      rw [name_eq] at performed_as
      obtain ⟨target, -, rest⟩ := ok_of_bind performed_as
      cases rest
      exact of_other (by simp [name_eq, OutputTargets.kinds]) rfl
  | out | error | perfTrace =>
      rw [name_eq] at performed_as
      obtain ⟨target, target_eq, rest⟩ := ok_of_bind performed_as
      cases rest
      have named : command.requiredArgument draft.bindings "missing target" = .ok target :=
        target_eq
      simp only [OutputTargets.kinds, List.mem_cons, List.not_mem_nil, or_false] at output
      rcases output with rfl | rfl | rfl <;>
        simp [Token.target?, kind_eq, name_eq, named, OutputTargets.target?, Except.toOption]
  | _ =>
      exact of_other (by simp [name_eq, OutputTargets.kinds])
        (settled_perform (by simp [name_eq]) performed).2

/-- A token changes the target for a kind of output if it names one. -/
theorem target?_accept (not_include : token.kind.commandKind? ≠ some .includeFile)
    (accepted : accept inclusion token draft = .ok (flow, after))
    (output : kind ∈ OutputTargets.kinds) :
    after.outputTargets.target? kind =
      (token.target? kind draft.bindings).or (draft.outputTargets.target? kind) := by
  have accepts := accepts_of_accept not_include accepted
  cases kind_eq : token.kind with
  | command command =>
      have include_ne : command.kind ≠ .includeFile := fun include_eq =>
        not_include (by rw [kind_eq, TokenKind.commandKind?, include_eq])
      simp only [accept, kind_eq] at accepted
      exact target?_perform kind_eq include_ne accepted output
  | _ =>
      have none_named : token.target? kind draft.bindings = none := by simp [Token.target?, kind_eq]
      rw [none_named, Option.none_or]
      cases accepts with
      | literal | value => rfl
      | separator => rw [Draft.outputTargets_close]
      | _ => simp_all

/-- Behind a walk through an expanded text the target for a kind of output is the last one named in
it, or else the one in front of it. -/
theorem target?_walk (not_include : ∀ token ∈ flat, token.kind.commandKind? ≠ some .includeFile)
    (covers : flow.Covers flat) (walked : walk inclusion flat draft = .ok (flow, after))
    (output : kind ∈ OutputTargets.kinds) :
    after.outputTargets.target? kind =
      (namedTargets kind draft.bindings flat).getLast?.or (draft.outputTargets.target? kind) := by
  induction flat generalizing draft with
  | nil =>
      cases walked
      rfl
  | cons token flat ih =>
      obtain ⟨here, behind⟩ := List.forall_mem_cons.mp not_include
      rw [walk_cons] at walked
      rcases accepted : accept inclusion token draft with failure | ⟨flow', middle⟩
      · simp [accepted] at walked
      rw [accepted] at walked
      have target_eq := target?_accept here accepted output
      obtain ⟨bindings_eq, stops_iff⟩ := accept_effect here accepted
      rw [namedTargets, List.getLast?_append, Option.or_assoc]
      cases flow' with
      | goOn =>
          have goes_on : ¬token.kind.endsScript := fun ends => by simpa using stops_iff.mpr ends
          rw [ih behind (Flow.Covers.tail covers goes_on) walked, bindings_eq, target_eq]
          cases token.target? kind draft.bindings <;> rfl
      | stop =>
          cases walked
          -- Nothing is left behind the command that ends the script.
          obtain rfl := Flow.Covers.eq_nil covers (stops_iff.mp rfl)
          rw [target_eq]
          cases token.target? kind draft.bindings <;> rfl

theorem target?_of_scriptOf (finished : scriptOf (.ok (flow, after)) = .ok script)
    (kind : CommandKind) :
    script.outputTargets.target? kind = after.outputTargets.target? kind := by
  cases flow with
  | goOn =>
      obtain rfl := Except.ok.inj finished
      exact congrArg (OutputTargets.target? · kind) (after.outputTargets_close 1 none)
  | stop =>
      obtain rfl := Except.ok.inj finished
      rfl

@[simp]
theorem bindings_record (draft : Draft) (kind : CommandKind) (target : String) :
    (draft.record kind target).bindings = draft.bindings := by
  cases kind <;> rfl

@[simp]
theorem batches_record (draft : Draft) (kind : CommandKind) (target : String) :
    (draft.record kind target).batches = draft.batches := by
  cases kind <;> rfl

@[simp]
theorem pending_record (draft : Draft) (kind : CommandKind) (target : String) :
    (draft.record kind target).pending = draft.pending := by
  cases kind <;> rfl

theorem target?_record (draft : Draft) (target : String) (output : kind ∈ OutputTargets.kinds) :
    (draft.record kind target).outputTargets.target? kind = some target := by
  simp only [OutputTargets.kinds, List.mem_cons, List.not_mem_nil, or_false] at output
  rcases output with rfl | rfl | rfl <;> rfl

/-- A script that is made behind a recorded target records it, or what is named behind it. -/
theorem records_of_scriptOf {resolver : Resolver} {limit : Nat} {tokens : List Token}
    {target : String}
    (made : scriptOf (walk (expansion resolver limit []) tokens (draft.record kind target)) =
      .ok script) :
    ∃ flat flow last, Expands resolver draft.bindings tokens flat flow last ∧
      script.Records kind target draft.batches.size draft.bindings flat flow := by
  obtain ⟨flat, flow, last, expands, finished, flat_walk⟩ := expands_of_scriptOf made
  have refuse : Expansion := fun _ _ draft => .ok (.goOn, draft)
  rw [bindings_record] at expands
  refine ⟨flat, flow, last.bindings, expands, fun output => ?_,
    fun connects index batch found later => ?_⟩
  · rw [target?_of_scriptOf finished,
      target?_walk expands.not_include expands.covers (flat_walk refuse) output,
      target?_record draft target output, bindings_record, Option.or_some]
  · subst connects
    obtain ⟨index_eq, before, behind, split, closed⟩ :=
      closedBehind_of_walk expands.not_include (flat_walk refuse) finished found later
    refine ⟨before, behind, split, closed.closing, index_eq ▸ closed.index_eq, ?_⟩
    have target_eq := congrArg Stamp.connectTarget closed.stamp_eq
    rw [← connectTargets_eq, ← Option.or_some]
    exact target_eq

end Build

/-- The target of a script that is built for a kind of output is the last one that its expanded text
names, in whatever file. -/
theorem targets_of_build {resolver : Resolver} {options : BuildOptions}
    {bindings : Variable.Table} {text : String} {script : Script}
    (built : build resolver options bindings text = .ok script) :
    ∃ tokens flat flow last, tokenize .script text = .ok tokens ∧
      Expands resolver bindings tokens flat flow last ∧
        ∀ kind ∈ OutputTargets.kinds,
          script.outputTargets.target? kind = (namedTargets kind bindings flat).getLast? := by
  obtain ⟨tokens, tokens_eq, built_tokens⟩ := ok_of_bind built
  rw [Build.buildTokens_eq] at built_tokens
  obtain ⟨flat, flow, last, expands, finished, flat_walk⟩ := Build.expands_of_scriptOf built_tokens
  have refuse : Build.Expansion := fun _ _ draft => .ok (.goOn, draft)
  refine ⟨tokens, flat, flow, last.bindings, tokens_eq, expands, fun kind output => ?_⟩
  rw [Build.target?_of_scriptOf finished,
    Build.target?_walk expands.not_include expands.covers (flat_walk refuse) output,
    Draft.target?_start, Option.or_none]
  rfl

/-- A target that is named behind the last batch, in an included file, counts. -/
example :
    (build (Resolver.ofFiles [("f", ":out b\n")]) {} (.ofList []) ":out a\n:error c\nx\n:r f").map
        (fun script => (script.outputTargets.out, script.outputTargets.error)) =
      .ok (some "b", some "c") := by
  decide +kernel

end SqlScript
