import SqlScript.Proofs.Build.Pieces

/-!
# Transparency of includes

A script that is built is the script of its expansion: replacing each include directive by the
tokens it stands for changes nothing, whichever directives they contain in turn.  The expansion has
no directives left, and it ends with the first command that ends the script.
-/

namespace SqlScript

/-- Whether such a token ends the script. -/
def TokenKind.endsScript (kind : TokenKind) : Prop :=
  kind.commandKind? ∈ [some .quit, some .exit]

/-- The row goes up to its first command that ends the script, if there is one. -/
def Flow.Covers (flow : Flow) (row : List Token) : Prop :=
  match flow with
  | .goOn => ∀ token ∈ row, ¬token.kind.endsScript
  | .stop => ∃ front last, row = front ++ [last] ∧ last.kind.endsScript ∧
      ∀ token ∈ front, ¬token.kind.endsScript

theorem Flow.Covers.append {front back : List Token} {flow : Flow}
    (covers_front : Flow.goOn.Covers front) (covers_back : flow.Covers back) :
    flow.Covers (front ++ back) := by
  cases flow with
  | goOn => exact List.forall_mem_append.mpr ⟨covers_front, covers_back⟩
  | stop =>
      obtain ⟨middle, last, rfl, ends, goes_on⟩ := covers_back
      refine ⟨front ++ middle, last, (List.append_assoc _ _ _).symm, ends, ?_⟩
      exact List.forall_mem_append.mpr ⟨covers_front, goes_on⟩

namespace Expands

variable {resolver : Resolver} {bindings last : Variable.Table} {tokens flat : List Token}
  {flow : Flow}

/-- An expansion ends right behind the first command that ends the script. -/
theorem covers (expands : Expands resolver bindings tokens flat flow last) : flow.Covers flat := by
  induction expands with
  | nil => exact fun _ member => absurd member List.not_mem_nil
  | plain not_special _ ih =>
      have goes_on : Flow.goOn.Covers [_] := List.forall_mem_singleton.mpr fun ends =>
        not_special (List.mem_cons_of_mem _ ends)
      exact goes_on.append ih
  | stop stops => exact ⟨[], _, rfl, stops, by simp⟩
  | included _ _ _ ih_inside ih_behind => exact ih_inside.append ih_behind
  | stopInside _ _ ih_inside => exact ih_inside

end Expands

/-- The expansion of a script that is built has no include directives, ends right behind the first
command that ends the script, and is built into the same script, whichever files there are and
however deeply they may be nested. -/
theorem script_of_expansion {resolver : Resolver} {options : BuildOptions}
    {bindings : Variable.Table} {text : String} {script : Script}
    (built : build resolver options bindings text = .ok script) :
    ∃ tokens, tokenize .script text = .ok tokens ∧
      (∃ flat flow last, Expands resolver bindings tokens flat flow last) ∧
      ∀ flat flow last, Expands resolver bindings tokens flat flow last →
        (∀ token ∈ flat, token.kind.commandKind? ≠ some .includeFile) ∧
        flow.Covers flat ∧
        ∀ (other : Resolver) (depth : Nat),
          buildTokens other { options with maxIncludeDepth := depth } bindings flat =
            .ok script := by
  obtain ⟨tokens, tokens_eq, built_tokens⟩ := ok_of_bind built
  obtain ⟨⟨flow, draft⟩, walked, finished⟩ := ok_of_bind built_tokens
  obtain ⟨flat, expands, flat_walk⟩ := Build.expands_of_walk walked
  refine ⟨tokens, tokens_eq, ⟨flat, flow, draft.bindings, expands⟩, ?_⟩
  intro flat' flow' last' expands'
  obtain ⟨rfl, rfl, -⟩ := expands.unique expands'
  refine ⟨expands.not_include, expands.covers, fun other depth => ?_⟩
  have flat_walked := flat_walk (Build.expand other depth depth [])
  rw [← finished]
  simp only [buildTokens, Draft.start] at flat_walked ⊢
  rw [flat_walked]
  rfl

/-- A directive whose path is a variable's value draws in a file that assigns the variable and draws
in another file by it, where the script ends. -/
theorem script_of_nested_expansion :
    let resolver := Resolver.ofFiles
      [("a", "b\n:setvar f c\n:r $(f)\nd"), ("c", ":on error ignore\nGO\n:exit\ne")]
    let bindings := Variable.Table.ofList [("f", "a")]
    let text := "x\n:r $(F)\ny"
    ∃ script tokens flat flow last, build resolver {} bindings text = .ok script ∧
      tokenize .script text = .ok tokens ∧ Expands resolver bindings tokens flat flow last ∧
        buildTokens (Resolver.ofFiles []) { maxIncludeDepth := 0 } bindings flat = .ok script := by
  intro resolver bindings text
  have evaluated : (build resolver {} bindings text).toBool = true := by
    decide +kernel +zetaReduce
  cases built : build resolver {} bindings text with
  | error failure =>
      rw [built] at evaluated
      contradiction
  | ok script =>
      obtain ⟨tokens, tokens_eq, ⟨flat, flow, last, expands⟩, transparent⟩ :=
        script_of_expansion built
      obtain ⟨-, -, rebuilt⟩ := transparent flat flow last expands
      exact ⟨script, tokens, flat, flow, last, rfl, tokens_eq, expands,
        rebuilt (Resolver.ofFiles []) 0⟩

end SqlScript
