import SqlScript.Proofs.Build.Moments
import SqlScript.Proofs.Build.Transparency
import SqlScript.Proofs.Token.Concatenation

/-!
# Continued scripts

A walk closes one batch behind the other and never comes back to one that is closed.  Text that is
put behind a script therefore leaves the batches that its separators close as they are, and nothing
behind the end of a script is taken in at all.
-/

namespace SqlScript

/-- The tokens of a text that ends a line come first if more text follows. -/
theorem Lexing.prefix_of_tokenize {file : SourceFile} {front back : String}
    {tokens tokens' : List Token} (ends : (ofText file front).EndsLine)
    (tokens_eq : tokenize file front = .ok tokens)
    (tokens_eq' : tokenize file (front ++ back) = .ok tokens') : tokens <+: tokens' := by
  have joined := ofText_of_tokenize tokens_eq'
  rw [ofText, String.toList_append, run_behind ends tokens_eq] at joined
  exact ⟨_, congrArg Lexing.tokens joined⟩

theorem TokenKind.inclusion?_of_endsScript {kind : TokenKind} (ends : kind.endsScript) :
    kind.inclusion? = none := by
  refine inclusion?_eq_none_iff.mpr fun is_include => ?_
  simp [endsScript, is_include] at ends

theorem kept_of_leading {front whole : Array Batch} (kept : front.toList <+: whole.toList)
    {index : Nat} {batch : Batch} (found : front[index]? = some batch) :
    whole[index]? = some batch := by
  rw [← Array.getElem?_toList] at found ⊢
  obtain ⟨tail, whole_eq⟩ := kept
  rw [← whole_eq, List.getElem?_append_left (List.getElem?_eq_some_iff.mp found).1]
  exact found

namespace Draft

variable (draft : Draft) (repeatCount : Nat)

/-- At a separator a batch is closed, even if there is no text. -/
theorem close_at_separator (position : Position) :
    ∃ batch, (draft.close repeatCount (some position)).batches = draft.batches.push batch := by
  unfold close
  cases region_eq : draft.pending.region? (some position) with
  | none =>
      obtain ⟨-, -, absurd⟩ := Pending.region?_eq_none_iff.mp region_eq
      contradiction
  | some region =>
      dsimp only
      split
      · exact ⟨_, rfl⟩
      · exact ⟨_, rfl⟩

theorem batches_prefix_close (separator : Option Position) :
    draft.batches.toList <+: (draft.close repeatCount separator).batches.toList ∧
      (draft.close repeatCount separator).batches.size ≤ draft.batches.size + 1 := by
  unfold close
  cases draft.pending.region? separator with
  | none => exact ⟨List.prefix_refl _, Nat.le_succ _⟩
  | some region =>
      dsimp only
      split <;> simp

theorem batches_prefix_finish (draft : Draft) :
    draft.finish.batches.toList <+: draft.batches.toList := by
  obtain ⟨tail, batches_eq, -⟩ := batches_finish draft
  exact ⟨tail, batches_eq.symm⟩

/-- A batch that is not blank stays in a script that is finished. -/
theorem finish_of_not_blank {draft : Draft} {index : Nat} {batch : Batch}
    (found : draft.batches[index]? = some batch) (not_blank : batch.isBlank = false) :
    draft.finish.batches[index]? = some batch := by
  obtain ⟨tail, batches_eq, blank⟩ := batches_finish draft
  rw [← Array.getElem?_toList] at found ⊢
  rw [batches_eq] at found
  by_cases inside : index < draft.finish.batches.toList.length
  · rwa [List.getElem?_append_left inside] at found
  · rw [List.getElem?_append_right (Nat.le_of_not_lt inside)] at found
    rw [blank batch (List.mem_of_getElem? found)] at not_blank
    contradiction

end Draft

namespace Build

variable {inclusion : Expansion} {token : Token} {draft after : Draft} {resolver : Resolver}
  {limit : Nat} {options : BuildOptions} {bindings : Variable.Table}

/-- While a walk goes on, separators close one batch each, and nothing else closes any. -/
theorem batches_accept (not_include : token.kind.commandKind? ≠ some .includeFile)
    (accepted : accept inclusion token draft = .ok (.goOn, after)) :
    token.kind.isSeparator = false ∧ after.batches = draft.batches ∨
      token.kind.isSeparator = true ∧ ∃ batch, after.batches = draft.batches.push batch := by
  cases accepts_of_accept not_include accepted with
  | literal is_literal =>
      exact .inl ⟨TokenKind.not_isSeparator_of_isLiteral is_literal, rfl⟩
  | value kind_eq | list kind_eq | listVar kind_eq | reset kind_eq =>
      exact .inl ⟨by rw [kind_eq]; rfl, rfl⟩
  | @separator repeatCount kind_eq =>
      exact .inr ⟨by rw [kind_eq]; rfl, draft.close_at_separator repeatCount token.start⟩
  | setting kind_eq _ _ _ batches_eq => exact .inl ⟨by rw [kind_eq]; rfl, batches_eq⟩

/-- A command that ends the script is always carried out, and closes at most one batch. -/
theorem accept_of_endsScript (inclusion : Expansion) (draft : Draft)
    (ends : token.kind.endsScript) :
    ∃ after, accept inclusion token draft = .ok (.stop, after) ∧
      draft.batches.toList <+: after.batches.toList ∧
        after.batches.size ≤ draft.batches.size + 1 := by
  have quits_or_exits := by simpa [TokenKind.endsScript] using ends
  rcases quits_or_exits with quits | exits
  · obtain ⟨command, kind_eq, name_eq⟩ := command_of_commandKind? quits
    refine ⟨draft, ?_, List.prefix_refl _, Nat.le_succ _⟩
    simp only [accept, kind_eq, perform, name_eq]
    rfl
  · obtain ⟨command, kind_eq, name_eq⟩ := command_of_commandKind? exits
    refine ⟨draft.close 1 none, ?_, draft.batches_prefix_close 1 none⟩
    simp only [accept, kind_eq, perform, name_eq]
    rfl

namespace Moment

variable {moment next last : Moment}

theorem batches_of_moves (moves : Moves resolver limit moment next) :
    (∀ token ∈ moment.tokens.head?, token.kind.isSeparator = false) ∧
        next.draft.batches = moment.draft.batches ∨
      (∃ token ∈ moment.tokens.head?, token.kind.isSeparator = true) ∧
        ∃ batch, next.draft.batches = moment.draft.batches.push batch := by
  cases moves with
  | @takes nested token rest draft after no_inclusion accepted =>
      have not_include := TokenKind.inclusion?_eq_none_iff.mp no_inclusion
      rcases batches_accept not_include accepted with ⟨text, same⟩ | ⟨separates, pushed⟩
      · exact .inl ⟨by simpa using text, same⟩
      · exact .inr ⟨⟨token, rfl, separates⟩, pushed⟩
  | @enters nested token rest tokens draft command path inclusion drawn =>
      obtain ⟨kind_eq, -⟩ := TokenKind.inclusion?_eq_some_iff.mp inclusion
      exact .inl ⟨by simp [kind_eq, TokenKind.isSeparator], rfl⟩
  | leaves => exact .inl ⟨by simp, rfl⟩

/-- Batches that are closed at a moment stay so. -/
theorem batches_prefix_of_reaches (reaches : moment.Reaches resolver limit next) :
    moment.draft.batches.toList <+: next.draft.batches.toList := by
  induction reaches with
  | refl => exact List.prefix_refl _
  | tail _ step ih =>
      rcases batches_of_moves (moves_of_advance step) with ⟨-, same⟩ | ⟨-, batch, pushed⟩
      · rwa [same]
      · rw [pushed, Array.toList_push]
        exact ih.trans (List.prefix_append _ _)

/-- Each batch that is closed between two moments is closed at a separator. -/
theorem separator_of_reaches (reaches : moment.Reaches resolver limit next) {index : Nat}
    (open_before : moment.draft.batches.size ≤ index)
    (closed_after : index < next.draft.batches.size) :
    ∃ here, moment.Reaches resolver limit here ∧
      (∃ token ∈ here.tokens.head?, token.kind.isSeparator = true) ∧
        here.draft.batches.size = index := by
  induction reaches with
  | refl => omega
  | @tail middle next reaches step ih =>
      rcases batches_of_moves (moves_of_advance step) with ⟨-, same⟩ | ⟨separates, batch, pushed⟩
      · rw [same] at closed_after
        exact ih closed_after
      · rw [pushed, Array.size_push] at closed_after
        rcases Nat.lt_succ_iff_lt_or_eq.mp closed_after with earlier | here
        · exact ih earlier
        · exact ⟨middle, reaches, separates, here.symm⟩

/-- At the end of a walk no tokens are left, or a command ends the script and closes at most one
more batch. -/
theorem batches_of_done {flow : Flow}
    (ends : last.advance resolver limit = .done (.ok (flow, after))) :
    flow = .goOn ∧ last.tokens = [] ∧ after = last.draft ∨
      flow = .stop ∧ last.draft.batches.toList <+: after.batches.toList ∧
        after.batches.size ≤ last.draft.batches.size + 1 := by
  obtain ⟨nested, tokens, draft⟩ := last
  cases tokens with
  | nil =>
      cases nested with
      | nil =>
          cases ends
          exact .inl ⟨rfl, rfl, rfl⟩
      | cons frame nested => cases ends
  | cons token rest =>
      cases no_inclusion : token.kind.inclusion? with
      | some command =>
          simp only [advance, no_inclusion] at ends
          split at ends <;> cases ends
      | none =>
          simp only [advance, no_inclusion] at ends
          split at ends
          · cases ends
          · cases ends
          · rename_i stopped accepted
            cases ends
            have not_include := TokenKind.inclusion?_eq_none_iff.mp no_inclusion
            have stops := (accept_effect not_include accepted).2.mp rfl
            obtain ⟨after', accepted', grows⟩ := accept_of_endsScript _ draft stops
            cases accepted.symm.trans accepted'
            exact .inr ⟨rfl, grows⟩

/-- A walk keeps the batches that are closed before it. -/
theorem batches_prefix_of_walk (moment : Moment) {flow : Flow}
    (walked : walk (expansion resolver limit moment.stack) moment.tokens moment.draft =
      .ok (flow, after)) :
    moment.draft.batches.toList <+: after.batches.toList := by
  have arrives : moment.Arrives resolver limit _ := arrives_of_walk moment
  rw [walked] at arrives
  cases flow with
  | goOn => exact batches_prefix_of_reaches arrives
  | stop =>
      obtain ⟨last, reaches, ends⟩ := arrives
      rcases batches_of_done ends with ⟨goes_on, -⟩ | ⟨-, grows, -⟩
      · contradiction
      · exact (batches_prefix_of_reaches reaches).trans grows

/-- The walk through a row of tokens has a last moment, with the result of the walk. -/
theorem last_of_walk (resolver : Resolver) (options : BuildOptions) (bindings : Variable.Table)
    (tokens : List Token) :
    ∃ last, (first options bindings tokens).Reaches resolver options.maxIncludeDepth last ∧
      last.advance resolver options.maxIncludeDepth =
        .done (walk (expansion resolver options.maxIncludeDepth []) tokens
          (Draft.start options bindings)) :=
  last_of_arrives rfl (arrives_of_walk _)

end Moment

/-- At some moment of the walk through a text, `token` comes next and `closed` batches are closed,
in the script or in a file that it includes. -/
def Meets (resolver : Resolver) (options : BuildOptions) (bindings : Variable.Table)
    (text : String) (token : Token) (closed : Nat) : Prop :=
  ∃ tokens moment, tokenize .script text = .ok tokens ∧
    (Moment.first options bindings tokens).Reaches resolver options.maxIncludeDepth moment ∧
      token ∈ moment.tokens.head? ∧ moment.draft.batches.size = closed

variable {text : String} {tokens : List Token} {closed : Nat}

/-- Where a separator comes next, a batch is closed that the walk has in the end. -/
theorem Meets.lt_size (meets : Meets resolver options bindings text token closed)
    (separates : token.kind.isSeparator = true) (tokens_eq : tokenize .script text = .ok tokens)
    (walked : walk (expansion resolver options.maxIncludeDepth []) tokens
      (Draft.start options bindings) = .ok (.goOn, after)) :
    closed < after.batches.size := by
  obtain ⟨tokens', moment, tokens_eq', passes, head_eq, rfl⟩ := meets
  cases tokens_eq.symm.trans tokens_eq'
  obtain ⟨last, reaches, ends⟩ := Moment.last_of_walk resolver options bindings tokens
  rw [walked] at ends
  obtain ⟨-, none_left, rfl⟩ := (Moment.batches_of_done ends).resolve_right (by simp)
  have onward := Moment.reaches_last reaches ends passes
  rcases Relation.ReflTransGen.cases_head onward with rfl | ⟨next, step, behind⟩
  · simp [none_left] at head_eq
  · have kept := (Moment.batches_prefix_of_reaches behind).length_le
    rcases Moment.batches_of_moves (Moment.moves_of_advance step) with
      ⟨no_separator, -⟩ | ⟨-, batch, pushed⟩
    · rw [no_separator token head_eq] at separates
      contradiction
    · rw [pushed, Array.toList_push, List.length_append, Array.length_toList] at kept
      exact kept

/-- Where a command that ends the script comes next, the walk ends. -/
theorem Meets.stops (meets : Meets resolver options bindings text token closed)
    (ends_script : token.kind.endsScript) (tokens_eq : tokenize .script text = .ok tokens) :
    ∃ after, walk (expansion resolver options.maxIncludeDepth []) tokens
      (Draft.start options bindings) = .ok (.stop, after) := by
  obtain ⟨tokens', moment, tokens_eq', passes, head_eq, -⟩ := meets
  cases tokens_eq.symm.trans tokens_eq'
  obtain ⟨last, reaches, ends⟩ := Moment.last_of_walk resolver options bindings tokens
  have onward := Moment.reaches_last reaches ends passes
  obtain ⟨after, accepted, -⟩ := accept_of_endsScript
    (expansion resolver options.maxIncludeDepth moment.stack) moment.draft ends_script
  obtain ⟨rest, tokens_here⟩ : ∃ rest, moment.tokens = token :: rest :=
    List.head?_eq_some_iff.mp head_eq
  have stops : moment.advance resolver options.maxIncludeDepth = .done (.ok (.stop, after)) := by
    simp [Moment.advance, tokens_here, TokenKind.inclusion?_of_endsScript ends_script, accepted]
  obtain rfl := Moment.eq_of_reaches stops onward
  exact ⟨after, Advance.done.inj (ends.symm.trans stops)⟩

/-- A script is finished from the batches of its walk and at most one that is closed behind it. -/
theorem finish_of_scriptOf {flow : Flow} {script : Script}
    (finished : scriptOf (.ok (flow, draft)) = .ok script) :
    ∃ closed : Draft, script = closed.finish ∧ draft.batches.toList <+: closed.batches.toList := by
  cases flow with
  | goOn =>
      exact ⟨draft.close 1 none, (Except.ok.inj finished).symm,
        (draft.batches_prefix_close 1 none).1⟩
  | stop => exact ⟨draft, (Except.ok.inj finished).symm, List.prefix_refl _⟩

/-- All batches of a script but the last are closed where a separator comes next. -/
theorem meets_of_lt {flow : Flow} {script : Script} (tokens_eq : tokenize .script text = .ok tokens)
    (walked : walk (expansion resolver options.maxIncludeDepth []) tokens
      (Draft.start options bindings) = .ok (flow, after))
    (finished : scriptOf (.ok (flow, after)) = .ok script) {index : Nat}
    (not_last : index + 1 < script.batches.size) :
    ∃ token, token.kind.isSeparator = true ∧ Meets resolver options bindings text token index := by
  obtain ⟨last, reaches, ends⟩ := Moment.last_of_walk resolver options bindings tokens
  rw [walked] at ends
  have closed_before : script.batches.size ≤ last.draft.batches.size + 1 := by
    rcases Moment.batches_of_done ends with ⟨rfl, -, rfl⟩ | ⟨rfl, -, size_le⟩
    · obtain rfl := Except.ok.inj finished
      have finish_le := (Draft.batches_prefix_finish (last.draft.close 1 none)).length_le
      exact finish_le.trans (last.draft.batches_prefix_close 1 none).2
    · obtain rfl := Except.ok.inj finished
      exact (Draft.batches_prefix_finish after).length_le.trans size_le
  obtain ⟨here, passes, ⟨token, head_eq, separates⟩, size_eq⟩ :=
    Moment.separator_of_reaches reaches (Nat.zero_le index) (by omega)
  exact ⟨token, separates, tokens, here, tokens_eq, passes, head_eq, size_eq⟩

end Build

/-- Text behind a script that ends a line leaves each batch that a separator of the script closes as
it is, blank ones apart, and these are all batches but the last; it is not taken in at all if a
command of the script or of its files ends the script. -/
theorem batches_of_continuation {resolver : Resolver} {options : BuildOptions}
    {bindings : Variable.Table} {front back : String} {script script' : Script}
    (ends : (Lexing.ofText .script front).EndsLine)
    (built : build resolver options bindings front = .ok script)
    (built' : build resolver options bindings (front ++ back) = .ok script') :
    (∀ index, index + 1 < script.batches.size →
      ∃ token, token.kind.isSeparator = true ∧
        Build.Meets resolver options bindings front token index) ∧
    (∀ token index batch, token.kind.isSeparator = true →
      Build.Meets resolver options bindings front token index →
        script.batches[index]? = some batch → batch.isBlank = false →
          script'.batches[index]? = some batch) ∧
    ((∃ token closed, token.kind.endsScript ∧
      Build.Meets resolver options bindings front token closed) → script' = script) := by
  obtain ⟨tokens, tokens_eq, built_tokens⟩ := ok_of_bind built
  obtain ⟨tokens', tokens_eq', built_tokens'⟩ := ok_of_bind built'
  obtain ⟨more, rfl⟩ := Lexing.prefix_of_tokenize ends tokens_eq tokens_eq'
  rw [Build.buildTokens_eq] at built_tokens built_tokens'
  rw [Build.walk_append] at built_tokens'
  rcases walked : Build.walk (Build.expansion resolver options.maxIncludeDepth []) tokens
    (Draft.start options bindings) with failure | ⟨_ | _, draft⟩
  · rw [walked] at built_tokens
    contradiction
  · rw [walked] at built_tokens built_tokens'
    refine ⟨fun index => Build.meets_of_lt tokens_eq walked built_tokens, ?_, ?_⟩
    · intro token index batch separates meets found not_blank
      have closed_by_separator := meets.lt_size separates tokens_eq walked
      obtain ⟨closed, rfl, kept⟩ := Build.finish_of_scriptOf built_tokens
      have same : draft.batches[index]? = some batch := by
        have found_closed := kept_of_leading closed.batches_prefix_finish found
        rw [Array.getElem?_eq_getElem closed_by_separator]
        rw [← kept_of_leading kept (Array.getElem?_eq_getElem closed_by_separator)]
        exact found_closed
      dsimp only at built_tokens'
      rcases walked' : Build.walk (Build.expansion resolver options.maxIncludeDepth []) more draft
        with failure | ⟨flow, draft'⟩
      · rw [walked'] at built_tokens'
        contradiction
      · rw [walked'] at built_tokens'
        obtain ⟨closed', rfl, kept'⟩ := Build.finish_of_scriptOf built_tokens'
        have grows : draft.batches.toList <+: draft'.batches.toList :=
          Build.Moment.batches_prefix_of_walk { nested := [], tokens := more, draft } walked'
        exact Draft.finish_of_not_blank (kept_of_leading (grows.trans kept') same) not_blank
    · rintro ⟨token, closed, ends_script, meets⟩
      obtain ⟨after, stopped⟩ := meets.stops ends_script tokens_eq
      cases walked.symm.trans stopped
  · rw [walked] at built_tokens built_tokens'
    obtain rfl : script = script' := Except.ok.inj (built_tokens.symm.trans built_tokens')
    exact ⟨fun index => Build.meets_of_lt tokens_eq walked built_tokens,
      fun _ _ _ _ _ found _ => found, fun _ => rfl⟩

/-- A batch that is closed in a file and one that is closed in the script outlive a command behind
them that discards the batch that is not closed. -/
theorem batches_of_continuation_by_reset :
    let resolver := Resolver.ofFiles [("a", "b\nGO\n")]
    let front := ":r a\nx\nGO 2\ny\n"
    let back := ":reset\nz"
    (Lexing.ofText .script front).EndsLine ∧ ∃ script script',
      build resolver {} (.ofList []) front = .ok script ∧
        build resolver {} (.ofList []) (front ++ back) = .ok script' ∧
          ∀ index < 2, ∃ batch, script.batches[index]? = some batch ∧
            script'.batches[index]? = some batch := by
  intro resolver front back
  have ends : (Lexing.ofText .script front).EndsLine := by
    unfold Lexing.EndsLine
    decide +kernel +zetaReduce
  have evaluated : (build resolver {} (.ofList []) front).toOption.map
      (fun script => script.batches.toList.map Batch.isBlank) = some [false, false, false] := by
    decide +kernel +zetaReduce
  have evaluated' : (build resolver {} (.ofList []) (front ++ back)).toBool = true := by
    decide +kernel +zetaReduce
  cases built : build resolver {} (.ofList []) front with
  | error failure =>
      rw [built] at evaluated
      contradiction
  | ok script =>
      cases built' : build resolver {} (.ofList []) (front ++ back) with
      | error failure =>
          rw [built'] at evaluated'
          contradiction
      | ok script' =>
          obtain ⟨all_but_last, kept, -⟩ := batches_of_continuation ends built built'
          rw [built] at evaluated
          have blank_eq : script.batches.toList.map Batch.isBlank = [false, false, false] :=
            Option.some.inj evaluated
          have size_eq : script.batches.size = 3 := by simpa using congrArg List.length blank_eq
          refine ⟨ends, script, script', rfl, rfl, fun index inside => ?_⟩
          have found := Array.getElem?_eq_getElem (show index < script.batches.size by omega)
          have not_blank : ∀ batch ∈ script.batches.toList, batch.isBlank = false := by
            intro batch member
            have blank_mem := List.mem_map_of_mem (f := Batch.isBlank) member
            rw [blank_eq] at blank_mem
            simpa using blank_mem
          obtain ⟨token, separates, meets⟩ := all_but_last index (by omega)
          exact ⟨_, found, kept token index _ separates meets found
            (not_blank _ (Array.getElem_mem_toList _))⟩

end SqlScript
