import SqlScript.Proofs.Build.Continuation

/-!
# Where batches are closed

Each batch of a script was closed at one moment of the walk: at a separator, at the command that
ends the script, or at its end (`Build.closes_of_build`).  What was pending at that moment is the
text of the batch, and the ends of its region are told by the first and the last contribution.
-/

namespace SqlScript

theorem TokenKind.eq_separator_of_isSeparator {kind : TokenKind}
    (separates : kind.isSeparator = true) : ∃ repeatCount, kind = .separator repeatCount := by
  cases kind with
  | separator repeatCount => exact ⟨repeatCount, rfl⟩
  | _ => contradiction

/-- Where a pending batch begins as far as its text tells. -/
def Pending.begin? (pending : Pending) : Option Position :=
  pending.start <|> pending.first

namespace Draft

/-- The batch that is closed is the pending text with its region. -/
structure Closed (draft : Draft) (separator : Option Position) (batch : Batch) : Prop where
  index_eq : batch.index = draft.batches.size
  text_eq : batch.text = draft.pending.text
  start_eq : (draft.pending.begin? <|> separator) = some batch.start
  stop_eq : batch.stop = draft.pending.stop.getD batch.start

/-- What is closed takes the action and the server that are settled now. -/
theorem closed_of_close (draft : Draft) (repeatCount : Nat) (separator : Option Position) :
    (draft.close repeatCount separator).batches = draft.batches ∧ separator = none ∨
      ∃ batch, (draft.close repeatCount separator).batches = draft.batches.push batch ∧
        draft.Closed separator batch ∧ batch.repeatCount = repeatCount ∧
          batch.errorAction = draft.errorAction ∧ batch.connectTarget = draft.connectTarget := by
  unfold close
  cases region_eq : draft.pending.region? separator with
  | none =>
      exact .inl ⟨rfl, (Pending.region?_eq_none_iff.mp region_eq).2.2⟩
  | some region =>
      obtain ⟨start, found, rfl⟩ := Option.map_eq_some_iff.mp region_eq
      have start_eq : (draft.pending.begin? <|> separator) = some start := by
        simp only [Option.orElse_eq_orElse, Option.orElse_eq_or] at found
        simpa [Pending.begin?, Option.orElse_eq_or, Option.or_assoc] using found
      refine .inr ?_
      dsimp only
      split
      · exact ⟨_, rfl, ⟨rfl, rfl, start_eq, rfl⟩, rfl, rfl, rfl⟩
      · exact ⟨_, rfl, ⟨rfl, rfl, start_eq, rfl⟩, rfl, rfl, rfl⟩

end Draft

namespace Build

variable {resolver : Resolver} {limit : Nat} {options : BuildOptions} {bindings : Variable.Table}
  {draft after : Draft} {inclusion : Expansion} {token : Token}

/-- A token at which a walk stops closes the pending batch or leaves it behind. -/
theorem accept_stop (not_include : token.kind.commandKind? ≠ some .includeFile)
    (accepted : accept inclusion token draft = .ok (.stop, after)) :
    token.kind.endsScript ∧ (after = draft ∨ after = draft.close 1 none) := by
  have accepts := accepts_of_accept not_include accepted
  refine ⟨accepts.effect.2.mp rfl, ?_⟩
  cases accepts with
  | quit => exact .inl rfl
  | exit => exact .inr rfl

namespace Moment

/-- The batch is closed where the moment stands. -/
inductive Closes (moment : Moment) (batch : Batch) : Prop
  | separator {token : Token} {repeatCount : Nat} : token ∈ moment.tokens.head? →
      token.kind = .separator repeatCount → moment.draft.Closed (some token.start) batch →
        Closes moment batch
  /-- Behind the last token, or at a command that ends the script. -/
  | last : (∀ token ∈ moment.tokens.head?, token.kind.endsScript) →
      moment.draft.Closed none batch → Closes moment batch

variable {moment next last : Moment} {batch : Batch}

theorem Closes.closed (closes : moment.Closes batch) :
    ∃ separator, moment.draft.Closed separator batch := by
  cases closes with
  | separator _ _ closed => exact ⟨_, closed⟩
  | last _ closed => exact ⟨_, closed⟩

theorem closes_of_moves (moves : Moves resolver limit moment next) :
    next.draft.batches = moment.draft.batches ∨
      ∃ batch, moment.Closes batch ∧ next.draft.batches = moment.draft.batches.push batch := by
  cases moves with
  | @takes nested token rest draft after no_inclusion accepted =>
      have not_include := TokenKind.inclusion?_eq_none_iff.mp no_inclusion
      rcases batches_accept not_include accepted with ⟨-, same⟩ | ⟨separates, batch, pushed⟩
      · exact .inl same
      · obtain ⟨repeatCount, kind_eq⟩ := TokenKind.eq_separator_of_isSeparator separates
        simp only [accept, kind_eq] at accepted
        cases accepted
        rcases draft.closed_of_close repeatCount (some token.start) with
          ⟨-, no_separator⟩ | ⟨closed, closed_eq, is_closed, -⟩
        · cases no_separator
        · exact .inr ⟨closed, .separator rfl kind_eq is_closed, closed_eq⟩
  | enters => exact .inl rfl
  | leaves => exact .inl rfl

/-- Each batch that is closed between two moments is closed at a moment in between. -/
theorem closes_of_reaches (reaches : moment.Reaches resolver limit next) {index : Nat}
    (found : next.draft.batches[index]? = some batch)
    (open_before : moment.draft.batches.size ≤ index) :
    ∃ here, moment.Reaches resolver limit here ∧ here.draft.batches.size = index ∧
      here.Closes batch := by
  induction reaches with
  | refl =>
      rw [Array.getElem?_eq_none open_before] at found
      contradiction
  | @tail middle next reaches step ih =>
      rcases closes_of_moves (moves_of_advance step) with same | ⟨closed, closes, pushed⟩
      · rw [same] at found
        exact ih found
      · rw [pushed, Array.getElem?_push] at found
        split at found
        · rename_i here
          cases found
          exact ⟨middle, reaches, here.symm, closes⟩
        · exact ih found

/-- A walk that ends leaves a draft of the batches that were closed, with one more if the pending
batch is closed at the end. -/
theorem closes_of_done {flow : Flow} {script : Script}
    (ends : last.advance resolver limit = .done (.ok (flow, after)))
    (finished : scriptOf (.ok (flow, after)) = .ok script) {index : Nat}
    (found : script.batches[index]? = some batch) :
    last.draft.batches[index]? = some batch ∨
      last.draft.batches.size = index ∧ last.Closes batch := by
  have of_close (at_end : ∀ token ∈ last.tokens.head?, token.kind.endsScript)
      (found : (last.draft.close 1 none).batches[index]? = some batch) :
      last.draft.batches[index]? = some batch ∨
        last.draft.batches.size = index ∧ last.Closes batch := by
    rcases last.draft.closed_of_close 1 none with ⟨same, -⟩ | ⟨closed, pushed, is_closed, -⟩
    · rw [same] at found
      exact .inl found
    · rw [pushed, Array.getElem?_push] at found
      split at found
      · rename_i here
        cases found
        exact .inr ⟨here.symm, .last at_end is_closed⟩
      · exact .inl found
  rcases batches_of_done ends with ⟨rfl, none_left, rfl⟩ | ⟨rfl, -⟩
  · obtain rfl := Except.ok.inj finished
    exact of_close (by simp [none_left])
      (kept_of_leading (last.draft.close 1 none).batches_prefix_finish found)
  · obtain rfl := Except.ok.inj finished
    have found_after := kept_of_leading after.batches_prefix_finish found
    obtain ⟨nested, tokens, draft⟩ := last
    cases tokens with
    | nil => cases nested <;> cases ends
    | cons token rest =>
        cases no_inclusion : token.kind.inclusion? with
        | some command =>
            simp only [advance, no_inclusion] at ends
            split at ends <;> cases ends
        | none =>
            simp only [advance, no_inclusion] at ends
            split at ends
            · cases ends
            · cases ends
            · rename_i stopped accepted
              cases ends
              have not_include := TokenKind.inclusion?_eq_none_iff.mp no_inclusion
              obtain ⟨ends_script, rfl | rfl⟩ := accept_stop not_include accepted
              · exact .inl found_after
              · exact of_close (by simpa using ends_script) found_after

end Moment

/-- Each batch of a script that is built was closed at a moment of the walk. -/
theorem closes_of_build {text : String} {script : Script}
    (built : build resolver options bindings text = .ok script) {index : Nat} {batch : Batch}
    (found : script.batches[index]? = some batch) :
    ∃ tokens here, tokenize .script text = .ok tokens ∧
      (Moment.first options bindings tokens).Reaches resolver options.maxIncludeDepth here ∧
        here.draft.batches.size = index ∧ here.Closes batch := by
  obtain ⟨tokens, tokens_eq, built_tokens⟩ := ok_of_bind built
  obtain ⟨last, result, reaches, ends, script_eq⟩ :=
    last_of_buildTokens resolver options bindings tokens
  rw [built_tokens] at script_eq
  rcases result with failure | ⟨flow, after⟩
  · cases script_eq
  · refine ⟨tokens, ?_⟩
    rcases Moment.closes_of_done ends script_eq.symm found with closed | ⟨size_eq, closes⟩
    · obtain ⟨here, passes, size_eq, closes⟩ :=
        Moment.closes_of_reaches reaches closed (Nat.zero_le index)
      exact ⟨here, tokens_eq, passes, size_eq, closes⟩
    · exact ⟨last, tokens_eq, reaches, size_eq, closes⟩

end Build
end SqlScript
