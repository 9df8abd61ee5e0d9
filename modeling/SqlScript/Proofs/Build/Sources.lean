import SqlScript.Proofs.Build.Lines

/-!
# Sources of built scripts

The tokens of an expanded script were read from the script itself or from files that its include
directives drew in.  Each token stands at its exact place in the file that it was read from, and so
does each of its characters.
-/

namespace SqlScript

/-- The files that a script of the text `text` is read from. -/
inductive Supplies (resolver : Resolver) (text : String) : SourceFile → (content : String) → Prop
  | script : Supplies resolver text .script text
  | included {path : String} {requester : SourceFile} {file : IncludedFile} :
      resolver path requester = .ok file →
        Supplies resolver text (.included file.path) file.text

/-- The position is that of the place behind `before` in a file.  Its counts are exact as long as
they fit into thirty-two bits. -/
structure Position.Marks (position : Position) (file : SourceFile) (before : List Char) : Prop where
  position_eq : position = (Position.startOf file).advance before
  exact : before.length < UInt32.size - 1 →
    position.coordinates =
      Coordinates.advance { line := 1, column := 1, offset := 0 } before

/-- The token stands at its place in a file that the script is read from. -/
inductive Token.Stems (resolver : Resolver) (text : String) (token : Token) : Prop
  | intro {file : SourceFile} {content : String} {before after : List Char} :
      Supplies resolver text file content →
        content.toList = before ++ (token.text.toList ++ after) →
          token.start.Marks file before →
            token.stop = token.start.advance token.text.toList → Stems resolver text token

/-- The character comes from a token of the expanded script: it is the character of a literal token
at its place in the file it was read from, or it comes from a value and stands for the reference. -/
inductive Glyph.Stems (resolver : Resolver) (text : String) (flat : List Token) (glyph : Glyph) :
    Prop
  | literal {file : SourceFile} {content : String} {before after : List Char} :
      glyph.token ∈ flat → glyph.token.kind.isLiteral = true →
        Supplies resolver text file content → content.toList = before ++ glyph.char :: after →
          glyph.origin.Marks file before → Stems resolver text flat glyph
  | value {name : String} :
      glyph.token ∈ flat → glyph.token.kind = .reference name →
        glyph.origin = glyph.token.start → Stems resolver text flat glyph

theorem Position.marks_advance (file : SourceFile) (before : List Char) :
    ((startOf file).advance before).Marks file before where
  position_eq := rfl
  exact bounded := by
    have room : (startOf file).HasRoom (before.length + 0) := hasRoom_startOf file bounded
    exact (coordinates_advance room).1

theorem Lexing.emits_of_tokenize {file : SourceFile} {content : String} {tokens : List Token}
    (tokens_eq : tokenize file content = .ok tokens) {token : Token} (member : token ∈ tokens) :
    ∃ before after, (ofText file content).Emits before token ∧
      content.toList = before ++ (token.text.toList ++ after) := by
  have content_eq := textOf_of_tokenize tokens_eq
  obtain ⟨earlier, later, rfl⟩ := List.append_of_mem member
  refine ⟨Token.textOf earlier, Token.textOf later, ⟨earlier, later, ?_, rfl⟩, ?_⟩
  · rw [ofText_of_tokenize tokens_eq]
  · rw [← content_eq, Token.textOf_append, Token.textOf_cons]

/-- A token of a file stands behind the text of the tokens before it. -/
theorem Lexing.coordinates_of_tokenize {file : SourceFile} {content : String}
    {earlier later : List Token} {token : Token}
    (tokens_eq : tokenize file content = .ok (earlier ++ token :: later)) :
    content.toList = Token.textOf earlier ++ (token.text.toList ++ Token.textOf later) ∧
      token.start = (Position.startOf file).advance (Token.textOf earlier) ∧
        token.stop = token.start.advance token.text.toList := by
  have emits : (ofText file content).Emits (Token.textOf earlier) token :=
    ⟨earlier, later, by rw [ofText_of_tokenize tokens_eq], rfl⟩
  refine ⟨?_, coordinates_of_emits emits⟩
  rw [← textOf_of_tokenize tokens_eq, Token.textOf_append, Token.textOf_cons]

theorem Lexing.failsAt_of_tokenize {file : SourceFile} {content : String} {failure : ParseError}
    (failed : tokenize file content = .error failure) :
    ∃ before, (ofText file content).FailsAt before failure := by
  refine ⟨_, rfl, ?_⟩
  unfold tokenize Lexing.result at failed
  split at failed
  · contradiction
  · rename_i other_eq
    cases failed
    exact other_eq

theorem Token.stems_of_tokenize {resolver : Resolver} {text content : String} {file : SourceFile}
    {tokens : List Token} (supplies : Supplies resolver text file content)
    (tokens_eq : tokenize file content = .ok tokens) :
    ∀ token ∈ tokens, token.Stems resolver text := by
  intro token member
  obtain ⟨before, after, emits, content_eq⟩ := Lexing.emits_of_tokenize tokens_eq member
  obtain ⟨start_eq, stop_eq⟩ := Lexing.coordinates_of_emits emits
  refine .intro supplies content_eq ?_ stop_eq
  rw [start_eq]
  exact Position.marks_advance file before

/-- What holds of the tokens of all files holds of the tokens of the expansion. -/
theorem Expands.forall_mem {resolver : Resolver} {bindings last : Variable.Table}
    {tokens flat : List Token} {flow : Flow} {property : Token → Prop}
    (expands : Expands resolver bindings tokens flat flow last)
    (outside : ∀ token ∈ tokens, property token)
    (drawn_in : ∀ bindings token inside, Included resolver bindings token inside →
      ∀ token ∈ inside, property token) :
    ∀ token ∈ flat, property token := by
  induction expands with
  | nil => exact outside
  | plain _ _ ih =>
      obtain ⟨here, behind⟩ := List.forall_mem_cons.mp outside
      exact List.forall_mem_cons.mpr ⟨here, ih behind⟩
  | stop _ => exact List.forall_mem_singleton.mpr (List.forall_mem_cons.mp outside).1
  | included drawn _ _ ih_inside ih_behind =>
      refine List.forall_mem_append.mpr ⟨ih_inside (drawn_in _ _ _ drawn), ?_⟩
      exact ih_behind (List.forall_mem_cons.mp outside).2
  | stopInside drawn _ ih_inside => exact ih_inside (drawn_in _ _ _ drawn)

theorem Expands.stems {resolver : Resolver} {bindings last : Variable.Table} {text : String}
    {tokens flat : List Token} {flow : Flow} (tokens_eq : tokenize .script text = .ok tokens)
    (expands : Expands resolver bindings tokens flat flow last) :
    ∀ token ∈ flat, token.Stems resolver text := by
  refine expands.forall_mem (Token.stems_of_tokenize .script tokens_eq) ?_
  rintro _ _ inside ⟨-, -, -, file_eq, inside_eq⟩
  exact Token.stems_of_tokenize (.included file_eq) inside_eq

namespace Glyph

theorem place_of_mem_literal {token : Token} {position : Position} {text : List Char}
    {glyph : Glyph} (member : glyph ∈ literal token position text) :
    glyph.token = token ∧ ∃ front back, text = front ++ glyph.char :: back ∧
      glyph.origin = position.advance front := by
  induction text generalizing position with
  | nil => cases member
  | cons c text ih =>
      rcases List.mem_cons.mp member with rfl | behind
      · exact ⟨rfl, [], text, rfl, rfl⟩
      · obtain ⟨token_eq, front, back, text_eq, origin_eq⟩ := ih behind
        exact ⟨token_eq, c :: front, back, by rw [text_eq, List.cons_append], origin_eq⟩

theorem stems_of_mem_literal {resolver : Resolver} {text : String} {flat : List Token}
    {token : Token} {glyph : Glyph} (member : token ∈ flat)
    (is_literal : token.kind.isLiteral = true) (stems : token.Stems resolver text)
    (glyph_member : glyph ∈ literal token token.start token.text.toList) :
    glyph.Stems resolver text flat := by
  obtain ⟨token_eq, front, back, text_eq, origin_eq⟩ := place_of_mem_literal glyph_member
  obtain ⟨supplies, content_eq, marks, -⟩ := stems
  rename_i file content before after
  have place_eq : content.toList = (before ++ front) ++ glyph.char :: (back ++ after) := by
    rw [content_eq, text_eq]
    simp
  refine .literal ?_ ?_ supplies place_eq ?_
  · rwa [token_eq]
  · rwa [token_eq]
  · rw [origin_eq, marks.position_eq, ← Position.advance_append]
    exact Position.marks_advance file (before ++ front)

theorem stems_of_mem_ofToken {resolver : Resolver} {bindings : Variable.Table} {text : String}
    {flat : List Token} {token : Token} {glyph : Glyph} (member : token ∈ flat)
    (stems : token.Stems resolver text) (glyph_member : glyph ∈ ofToken bindings token) :
    glyph.Stems resolver text flat := by
  unfold ofToken at glyph_member
  cases kind_eq : token.kind with
  | text | quotedString | quotedIdentifier | lineComment | blockComment =>
      rw [kind_eq] at glyph_member
      exact stems_of_mem_literal member (by rw [kind_eq]; rfl) stems glyph_member
  | reference name =>
      rw [kind_eq] at glyph_member
      obtain ⟨c, -, rfl⟩ := List.mem_map.mp glyph_member
      exact .value member kind_eq rfl
  | separator | command =>
      rw [kind_eq] at glyph_member
      cases glyph_member

/-- What holds of the characters of all tokens holds of the characters of all rows. -/
theorem forall_mem_rows {property : Glyph → Prop} (bindings : Variable.Table)
    {gathered : List Glyph} {tokens : List Token} (pending : ∀ glyph ∈ gathered, property glyph)
    (contributed : ∀ token ∈ tokens, ∀ bindings, ∀ glyph ∈ ofToken bindings token,
      property glyph) :
    ∀ row ∈ rows bindings gathered tokens, ∀ glyph ∈ row, property glyph := by
  have none_pending : ∀ glyph ∈ ([] : List Glyph), property glyph := by simp
  fun_induction rows bindings gathered tokens with
  | case1 => simpa using pending
  | case2 bindings gathered token tokens _ _ ih =>
      obtain ⟨-, behind⟩ := List.forall_mem_cons.mp contributed
      exact List.forall_mem_cons.mpr ⟨pending, ih none_pending behind⟩
  | case3 => simp
  | case4 => simpa using pending
  | case5 bindings gathered token tokens _ _ _ ih =>
      exact ih none_pending (List.forall_mem_cons.mp contributed).2
  | case6 bindings gathered token tokens _ _ _ _ _ ih =>
      exact ih pending (List.forall_mem_cons.mp contributed).2
  | case7 bindings gathered token tokens _ _ ih =>
      obtain ⟨here, behind⟩ := List.forall_mem_cons.mp contributed
      exact ih (List.forall_mem_append.mpr ⟨pending, here bindings⟩) behind

end Glyph
end SqlScript
