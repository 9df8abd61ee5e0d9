import SqlScript.Proofs.Build.Expansion
import SqlScript.Proofs.Token.Coordinates

/-!
# Batches as pieces of the expanded text

Every token of an expanded script contributes a text: a reference the value of its variable, a
command nothing, and any other token its own text.  Separators cut what the tokens contribute into
pieces.  The batches of a script are these pieces up to a tail of blank ones.
-/

namespace SqlScript

theorem Variable.Table.get?_of_resolve {bindings : Variable.Table} {name value : String}
    {position : Position} (resolved : bindings.resolve name position = .ok value) :
    bindings.get? name = some value := by
  unfold resolve at resolved
  split at resolved
  · rename_i found
    rw [found, Except.ok.inj resolved]
  · contradiction

/-- What a token gives to the text of a batch. -/
def Token.contribution (bindings : Variable.Table) (token : Token) : List Char :=
  match token.kind with
  | .reference name => ((bindings.get? name).getD "").toList
  | .separator _ | .command _ => []
  | _ => token.text.toList

/-- A stretch of text up to a separator or to the end. -/
structure Piece where
  text : List Char
  repeatCount : Nat
  deriving DecidableEq, Repr

namespace Piece

/-- The text of a batch and how often it is run. -/
def ofBatch (batch : Batch) : Piece where
  text := batch.text.toList
  repeatCount := batch.repeatCount

/-- The pieces with more text at the beginning of the first one. -/
def prepend (text : List Char) (pieces : List Piece) : List Piece :=
  pieces.modifyHead fun piece => { piece with text := text ++ piece.text }

/-- The pieces into which separators cut what tokens contribute. -/
def cut : (bindings : Variable.Table) → List Token → List Piece
  | _, [] => [{ text := [], repeatCount := 1 }]
  | bindings, token :: tokens =>
      match token.kind with
      | .separator repeatCount => { text := [], repeatCount } :: cut bindings tokens
      | _ => prepend (token.contribution bindings) (cut (bindings.after token) tokens)

/-- Texts joined by separators. -/
def rejoin : (pieces : List Piece) → (separators : List (List Char)) → List Char
  | piece :: pieces, separator :: separators =>
      piece.text ++ (separator ++ rejoin pieces separators)
  | pieces, _ => pieces.flatMap Piece.text

@[simp]
theorem prepend_cons (text : List Char) (piece : Piece) (pieces : List Piece) :
    prepend text (piece :: pieces) = { piece with text := text ++ piece.text } :: pieces := rfl

@[simp]
theorem prepend_nil (pieces : List Piece) : prepend [] pieces = pieces := by
  cases pieces <;> rfl

@[simp]
theorem prepend_prepend (front back : List Char) (pieces : List Piece) :
    prepend front (prepend back pieces) = prepend (front ++ back) pieces := by
  cases pieces with
  | nil => rfl
  | cons piece pieces => simp

theorem prepend_ne_nil {text : List Char} {pieces : List Piece} (pieces_ne : pieces ≠ []) :
    prepend text pieces ≠ [] := by
  cases pieces with
  | nil => contradiction
  | cons => simp

theorem cut_ne_nil (bindings : Variable.Table) (tokens : List Token) :
    cut bindings tokens ≠ [] := by
  fun_induction cut bindings tokens with
  | case1 => simp
  | case2 => simp
  | case3 bindings token tokens _ ih => exact prepend_ne_nil ih

theorem rejoin_prepend (text : List Char) {pieces : List Piece} (separators : List (List Char))
    (pieces_ne : pieces ≠ []) :
    rejoin (prepend text pieces) separators = text ++ rejoin pieces separators := by
  cases pieces with
  | nil => contradiction
  | cons piece pieces => cases separators <;> simp [rejoin]

/-- Pieces of a text without commands and references, joined by their separators, are the text. -/
theorem rejoin_cut {bindings : Variable.Table} {tokens : List Token}
    (plain : ∀ token ∈ tokens, token.kind.isLiteral = true ∨ token.kind.isSeparator = true) :
    rejoin (cut bindings tokens)
        ((tokens.filter fun token => token.kind.isSeparator).map fun token => token.text.toList) =
      Token.textOf tokens := by
  fun_induction cut bindings tokens with
  | case1 => rfl
  | case2 bindings token tokens repeatCount kind_eq ih =>
      have is_separator : token.kind.isSeparator = true := by rw [kind_eq]; rfl
      simp only [List.filter_cons, is_separator, if_true, List.map_cons, rejoin, List.nil_append,
        Token.textOf_cons]
      rw [ih fun other member => plain other (List.mem_cons_of_mem token member)]
  | case3 bindings token tokens not_separator ih =>
      have is_literal : token.kind.isLiteral = true ∧ token.kind.isSeparator = false := by
        have plain_token := plain token List.mem_cons_self
        revert not_separator plain_token
        cases token.kind <;> simp [TokenKind.isLiteral, TokenKind.isSeparator]
      have contribution_eq : token.contribution bindings = token.text.toList := by
        unfold Token.contribution
        split <;> simp_all [TokenKind.isLiteral]
      have plain_tokens : ∀ other ∈ tokens, other.kind.isLiteral = true ∨
          other.kind.isSeparator = true := fun other member =>
        plain other (List.mem_cons_of_mem token member)
      rw [rejoin_prepend _ _ (cut_ne_nil _ _), contribution_eq,
        List.filter_cons_of_neg (by simp [is_literal.2]), ih plain_tokens, Token.textOf_cons]

end Piece

namespace Pending

/-- A batch that has text knows where its first contribution began. -/
def Tracked (pending : Pending) : Prop :=
  pending.first = none → pending.text = ""

theorem toList_push (pending : Pending) (origin : Position) (c : Char) :
    (pending.push origin c).text.toList = pending.text.toList ++ [c] := by
  simp [push]

theorem toList_pushLiteral (position : Position) (text : List Char) (pending : Pending) :
    (pushLiteral position text pending).text.toList = pending.text.toList ++ text := by
  induction text generalizing position pending with
  | nil => simp [pushLiteral]
  | cons c text ih =>
      rw [pushLiteral, ih, toList_push]
      simp

theorem toList_pushValue (origin : Position) (text : List Char) (pending : Pending) :
    (pushValue origin text pending).text.toList = pending.text.toList ++ text := by
  induction text generalizing pending with
  | nil => simp [pushValue]
  | cons c text ih =>
      rw [pushValue, List.foldl_cons, ← pushValue, ih, toList_push]
      simp

theorem toList_contribute {pending : Pending} {text : List Char}
    {fill : List Char → Pending → Pending}
    (start stop : Position)
    (fill_eq : (fill text pending).text.toList = pending.text.toList ++ text) :
    (pending.contribute start stop text fill).text.toList = pending.text.toList ++ text := by
  unfold contribute
  split
  · simp_all
  · exact fill_eq

theorem tracked_contribute {pending : Pending} (tracked : pending.Tracked) (text : List Char)
    (fill : List Char → Pending → Pending) (start stop : Position) :
    (pending.contribute start stop text fill).Tracked := by
  unfold contribute
  split
  · exact tracked
  · intro no_first
    cases first_eq : pending.first <;> simp [first_eq] at no_first

theorem toList_appendLiteral {token : Token} (pending : Pending)
    (is_literal : token.kind.isLiteral = true) (bindings : Variable.Table) :
    (pending.appendLiteral token.start token.stop token.text).text.toList =
      pending.text.toList ++ token.contribution bindings := by
  have contribution_eq : token.contribution bindings = token.text.toList := by
    unfold Token.contribution
    cases kind_eq : token.kind <;> simp_all [TokenKind.isLiteral]
  rw [contribution_eq]
  exact toList_contribute _ _ (toList_pushLiteral _ _ _)

theorem toList_appendValue {token : Token} {name value : String} {bindings : Variable.Table}
    (pending : Pending) (kind_eq : token.kind = .reference name)
    (value_eq : bindings.resolve name token.start = .ok value) :
    (pending.appendValue token.start token.stop value).text.toList =
      pending.text.toList ++ token.contribution bindings := by
  rw [Token.contribution, kind_eq]
  simp only [Variable.Table.get?_of_resolve value_eq, Option.getD_some]
  exact toList_contribute _ _ (toList_pushValue _ _ _)

/-- Only without text and without a separator does a batch have no region. -/
theorem region?_eq_none_iff {pending : Pending} {separator : Option Position} :
    pending.region? separator = none ↔
      pending.start = none ∧ pending.first = none ∧ separator = none := by
  simp [region?, Option.orElse_eq_or]

end Pending

namespace Draft

/-- The closed batches as pieces. -/
def pieces (draft : Draft) : List Piece :=
  draft.batches.toList.map Piece.ofBatch

/-- A batch that is closed is the pending text; only at the end of a script may one without any text
be left out. -/
theorem pieces_close (draft : Draft) (repeatCount : Nat) (separator : Option Position) :
    (draft.close repeatCount separator).pieces =
        draft.pieces ++ [{ text := draft.pending.text.toList, repeatCount }] ∨
      separator = none ∧ draft.pending.first = none ∧
        (draft.close repeatCount separator).pieces = draft.pieces := by
  unfold close
  cases region_eq : draft.pending.region? separator with
  | none =>
      obtain ⟨-, no_first, no_separator⟩ := Pending.region?_eq_none_iff.mp region_eq
      exact .inr ⟨no_separator, no_first, rfl⟩
  | some region =>
      refine .inl ?_
      dsimp only
      split <;> simp [pieces, Piece.ofBatch]

theorem pending_close (draft : Draft) (repeatCount : Nat) (separator : Option Position) :
    (draft.close repeatCount separator).pending = { onSeparatorLine := separator.isSome } := by
  unfold close
  dsimp only
  split
  · rfl
  · split <;> rfl

theorem toList_finish (draft : Draft) :
    draft.finish.batches.toList =
      (draft.batches.toList.reverse.dropWhile Batch.isBlank).reverse := by
  rw [finish, ← draft.batches.toArray_toList, List.popWhile_toArray]

/-- A finished script has all closed batches up to a tail of blank ones. -/
theorem batches_finish (draft : Draft) :
    ∃ tail, draft.batches.toList = draft.finish.batches.toList ++ tail ∧
      ∀ batch ∈ tail, batch.isBlank = true := by
  refine ⟨(draft.batches.toList.reverse.takeWhile Batch.isBlank).reverse, ?_,
    fun batch member => ?_⟩
  · rw [toList_finish, ← List.reverse_append, List.takeWhile_append_dropWhile, List.reverse_reverse]
  · exact List.all_eq_true.mp List.all_takeWhile batch (List.mem_reverse.mp member)

end Draft

namespace Build

variable {expansion : Expansion} {token : Token} {tokens : List Token} {draft after : Draft}
  {flow : Flow}

/-- The commands that change which text a script consists of. -/
def TextCommand (kind : TokenKind) : Prop :=
  kind.commandKind? ∈ [some .reset, some .quit, some .exit]

/-- What the pending text and the closed batches of a draft come to if `tokens` follow. -/
def foreseen (draft : Draft) (tokens : List Token) : List Piece :=
  draft.pieces ++ Piece.prepend draft.pending.text.toList (Piece.cut draft.bindings tokens)

theorem tracked_accept (not_include : token.kind.commandKind? ≠ some .includeFile)
    (accepted : accept expansion token draft = .ok (flow, after))
    (tracked : draft.pending.Tracked) : after.pending.Tracked := by
  cases accepts_of_accept not_include accepted with
  | literal | value => exact Pending.tracked_contribute tracked _ _ _ _
  | separator | exit =>
      rw [Draft.pending_close]
      exact fun _ => rfl
  | list | listVar | quit => exact tracked
  | reset => exact fun _ => rfl
  | setting _ _ _ pending_eq => rwa [pending_eq]

theorem foreseen_accept (tokens : List Token)
    (not_include : token.kind.commandKind? ≠ some .includeFile) (kept : ¬TextCommand token.kind)
    (accepted : accept expansion token draft = .ok (flow, after)) :
    foreseen draft (token :: tokens) = foreseen after tokens := by
  have accepts := accepts_of_accept not_include accepted
  obtain ⟨bindings_eq, -⟩ := accepts.effect
  have of_contribution (not_separator : ∀ n, token.kind ≠ .separator n)
      (batches_eq : after.batches = draft.batches)
      (text_eq : after.pending.text.toList =
        draft.pending.text.toList ++ token.contribution draft.bindings) :
      foreseen draft (token :: tokens) = foreseen after tokens := by
    have cut_eq : Piece.cut draft.bindings (token :: tokens) =
        Piece.prepend (token.contribution draft.bindings) (Piece.cut after.bindings tokens) := by
      rw [Piece.cut, bindings_eq]
      split
      · rename_i n kind_eq
        exact (not_separator n kind_eq).elim
      · rfl
    rw [foreseen, foreseen, cut_eq, Piece.prepend_prepend, text_eq, Draft.pieces, Draft.pieces,
      batches_eq]
  cases accepts with
  | literal is_literal =>
      refine of_contribution (fun n kind_eq => ?_) rfl ?_
      · simp [kind_eq, TokenKind.isLiteral] at is_literal
      · exact Pending.toList_appendLiteral _ is_literal _
  | value kind_eq value_eq =>
      exact of_contribution (by simp [kind_eq]) rfl
        (Pending.toList_appendValue _ kind_eq value_eq)
  | @separator repeatCount kind_eq =>
      have pending_eq := Draft.pending_close draft repeatCount (some token.start)
      rcases Draft.pieces_close draft repeatCount (some token.start) with closed | ⟨no_separator, -⟩
      · rw [foreseen, foreseen, closed, pending_eq, bindings_close, Piece.cut, kind_eq]
        simp
      · contradiction
  | list kind_eq | listVar kind_eq =>
      refine of_contribution (by simp [kind_eq]) rfl ?_
      simp [Token.contribution, kind_eq, Draft.announce]
  | reset kind_eq name_eq | quit kind_eq name_eq | exit kind_eq name_eq =>
      exact (kept (by simp [TextCommand, TokenKind.commandKind?, kind_eq, name_eq])).elim
  | setting kind_eq _ _ pending_eq batches_eq =>
      refine of_contribution (by simp [kind_eq]) batches_eq ?_
      simp [Token.contribution, kind_eq, pending_eq]

theorem foreseen_walk {tokens : List Token}
    (plain : ∀ token ∈ tokens,
      token.kind.commandKind? ≠ some .includeFile ∧ ¬TextCommand token.kind)
    (tracked : draft.pending.Tracked)
    (walked : walk expansion tokens draft = .ok (flow, after)) :
    flow = .goOn ∧ after.pending.Tracked ∧ foreseen draft tokens = foreseen after [] := by
  let Keeps (flow : Flow) (middle : Draft) (rest : List Token) : Prop :=
    flow = .goOn ∧ middle.pending.Tracked ∧ foreseen draft tokens = foreseen middle rest
  refine walk_keeps Keeps ?_ (fun stopped => absurd stopped.1 (by decide)) plain walked
    ⟨rfl, tracked, rfl⟩
  rintro token rest middle flow after ⟨not_include, kept⟩ accepted ⟨-, tracked, foreseen_eq⟩
  refine ⟨?_, tracked_accept not_include accepted tracked,
    foreseen_eq.trans (foreseen_accept rest not_include kept accepted)⟩
  cases flow with
  | goOn => rfl
  | stop =>
      have stops := (accept_effect not_include accepted).2.mp rfl
      exact (kept (List.mem_cons_of_mem _ stops)).elim

/-- Closing the last batch leaves out blank pieces only. -/
theorem foreseen_finish {draft : Draft} (tracked : draft.pending.Tracked) :
    ∃ tail,
      foreseen draft [] = (draft.close 1 none).finish.batches.toList.map Piece.ofBatch ++ tail ∧
        ∀ piece ∈ tail, Text.isBlankText piece.text = true := by
  obtain ⟨blanks, batches_eq, blank⟩ := Draft.batches_finish (draft.close 1 none)
  have blank_pieces : ∀ piece ∈ blanks.map Piece.ofBatch, Text.isBlankText piece.text = true := by
    intro piece member
    obtain ⟨batch, batch_member, rfl⟩ := List.mem_map.mp member
    exact blank batch batch_member
  have foreseen_eq : foreseen draft [] =
      draft.pieces ++ [{ text := draft.pending.text.toList, repeatCount := 1 }] := by
    simp [foreseen, Piece.cut]
  have closed_eq : (draft.close 1 none).pieces =
      (draft.close 1 none).finish.batches.toList.map Piece.ofBatch ++ blanks.map Piece.ofBatch := by
    rw [Draft.pieces, batches_eq, List.map_append]
  rcases Draft.pieces_close draft 1 none with closed | ⟨-, no_first, unchanged⟩
  · refine ⟨blanks.map Piece.ofBatch, ?_, blank_pieces⟩
    rw [foreseen_eq, ← closed, closed_eq]
  · refine ⟨blanks.map Piece.ofBatch ++ [{ text := [], repeatCount := 1 }], ?_, ?_⟩
    · rw [foreseen_eq, tracked no_first, ← unchanged, closed_eq, List.append_assoc]
      rfl
    · exact List.forall_mem_append.mpr ⟨blank_pieces, List.forall_mem_singleton.mpr rfl⟩

end Build

theorem Expands.not_include {resolver : Resolver} {bindings last : Variable.Table}
    {tokens flat : List Token} {flow : Flow}
    (expands : Expands resolver bindings tokens flat flow last) :
    ∀ token ∈ flat, token.kind.commandKind? ≠ some .includeFile := by
  induction expands with
  | nil => simp
  | plain not_special _ ih =>
      refine List.forall_mem_cons.mpr ⟨fun is_include => ?_, ih⟩
      simp [is_include] at not_special
  | stop stops =>
      refine List.forall_mem_singleton.mpr fun is_include => ?_
      simp [is_include] at stops
  | included _ _ _ ih_inside ih_behind => exact List.forall_mem_append.mpr ⟨ih_inside, ih_behind⟩
  | stopInside _ _ ih => exact ih

/-- A pending batch that has text knows where it began, whatever a walk has come through. -/
theorem Build.tracked_walk {resolver : Resolver} {limit depth : Nat} {stack : List String}
    {tokens : List Token} {draft after : Draft} {flow : Flow}
    (walked : walk (expand resolver limit depth stack) tokens draft = .ok (flow, after))
    (tracked : draft.pending.Tracked) : after.pending.Tracked := by
  obtain ⟨flat, expands, flat_walk⟩ := expands_of_walk walked
  have refuse : Expansion := fun _ _ draft => .ok (.goOn, draft)
  exact walk_keeps (fun _ draft _ => draft.pending.Tracked) tracked_accept id expands.not_include
    (flat_walk refuse) tracked

theorem TokenKind.commandKind?_of_plain {kind : TokenKind}
    (plain : kind.isLiteral = true ∨ kind.isSeparator = true) : kind.commandKind? = none := by
  cases kind with
  | command => simp [isLiteral, isSeparator] at plain
  | _ => rfl

theorem Expands.flat_eq_of_plain {resolver : Resolver} {bindings last : Variable.Table}
    {tokens flat : List Token} {flow : Flow}
    (expands : Expands resolver bindings tokens flat flow last)
    (plain : ∀ token ∈ tokens, token.kind.commandKind? = none) : flat = tokens := by
  induction expands with
  | nil => rfl
  | plain _ _ ih => rw [ih fun other member => plain other (List.mem_cons_of_mem _ member)]
  | stop stops => simp [plain _ List.mem_cons_self] at stops
  | included drawn => simpa [plain _ List.mem_cons_self] using drawn.commandKind?_eq
  | stopInside drawn => simpa [plain _ List.mem_cons_self] using drawn.commandKind?_eq

theorem textOf_of_tokenize {file : SourceFile} {text : String} {tokens : List Token}
    (tokens_eq : tokenize file text = .ok tokens) : Token.textOf tokens = text.toList := by
  have lexed := Lexing.ofText_of_tokenize tokens_eq
  have whole : (Lexing.ofText file text).text = text.toList :=
    (Lexing.text_append (Position.startOf file) true text.toList).2 (by rw [← Lexing.ofText, lexed])
  rw [lexed] at whole
  exact whole

/-- The batches of a script that is built are the pieces of its expanded text, up to a tail of blank
ones.  A script without commands and references is made of them and of its separators. -/
theorem batches_of_build {resolver : Resolver} {options : BuildOptions} {bindings : Variable.Table}
    {text : String} {script : Script}
    (built : build resolver options bindings text = .ok script) :
    ∃ tokens flat flow last, tokenize .script text = .ok tokens ∧
      Expands resolver bindings tokens flat flow last ∧
      (∀ flat' flow' last',
        Expands resolver bindings tokens flat' flow' last' → flat' = flat) ∧
      ((∀ token ∈ flat, token.kind.commandKind? ∉ [some .reset, some .quit, some .exit]) →
        ∃ tail, Piece.cut bindings flat = script.batches.toList.map Piece.ofBatch ++ tail ∧
          ∀ piece ∈ tail, Text.isBlankText piece.text = true) ∧
      ((∀ token ∈ tokens, token.kind.isLiteral = true ∨ token.kind.isSeparator = true) →
        ∃ tail, (∀ piece ∈ tail, Text.isBlankText piece.text = true) ∧
          text.toList =
            Piece.rejoin (script.batches.toList.map Piece.ofBatch ++ tail)
              ((tokens.filter fun token => token.kind.isSeparator).map fun token =>
                token.text.toList)) := by
  obtain ⟨tokens, tokens_eq, built_tokens⟩ := ok_of_bind built
  obtain ⟨⟨flow, draft⟩, walked, finished⟩ := ok_of_bind built_tokens
  obtain ⟨flat, expands, flat_walk⟩ := Build.expands_of_walk walked
  have pieces (kept : ∀ token ∈ flat, ¬Build.TextCommand token.kind) :
      ∃ tail, Piece.cut bindings flat = script.batches.toList.map Piece.ofBatch ++ tail ∧
        ∀ piece ∈ tail, Text.isBlankText piece.text = true := by
    have plain : ∀ token ∈ flat,
        token.kind.commandKind? ≠ some .includeFile ∧ ¬Build.TextCommand token.kind :=
      fun token member => ⟨expands.not_include token member, kept token member⟩
    have refuse : Build.Expansion := fun _ _ draft => .ok (.goOn, draft)
    obtain ⟨rfl, tracked, foreseen_eq⟩ :=
      Build.foreseen_walk plain (fun _ => rfl) (flat_walk refuse)
    obtain rfl := Except.ok.inj finished
    obtain ⟨tail, tail_eq, blank⟩ := Build.foreseen_finish tracked
    refine ⟨tail, ?_, blank⟩
    rw [← tail_eq, ← foreseen_eq]
    simp [Build.foreseen, Draft.start, Draft.pieces]
  refine ⟨tokens, flat, flow, draft.bindings, tokens_eq, expands,
    fun _ _ _ expands' => (expands'.unique expands).1, pieces, fun plain => ?_⟩
  have no_command : ∀ token ∈ tokens, token.kind.commandKind? = none :=
    fun token member => TokenKind.commandKind?_of_plain (plain token member)
  obtain rfl := expands.flat_eq_of_plain no_command
  obtain ⟨tail, cut_eq, blank⟩ :=
    pieces fun token member => by simp [Build.TextCommand, no_command token member]
  refine ⟨tail, blank, ?_⟩
  rw [← cut_eq, Piece.rejoin_cut plain, textOf_of_tokenize tokens_eq]

theorem batches_of_build_with_reference :
    ∃ script tokens flat flow last,
      build (Resolver.ofFiles []) {} (.ofList [("x", "y")]) "$(X)\nGO 2\nb" = .ok script ∧
        tokenize .script "$(X)\nGO 2\nb" = .ok tokens ∧
          Expands (Resolver.ofFiles []) (.ofList [("x", "y")]) tokens flat flow last ∧
            ((∀ token ∈ flat, token.kind.commandKind? ∉ [some .reset, some .quit, some .exit]) →
              ∃ tail, Piece.cut (.ofList [("x", "y")]) flat =
                  script.batches.toList.map Piece.ofBatch ++ tail ∧
                ∀ piece ∈ tail, Text.isBlankText piece.text = true) := by
  have evaluated :
      (build (Resolver.ofFiles []) {} (.ofList [("x", "y")]) "$(X)\nGO 2\nb").toBool = true := by
    decide +kernel
  cases built : build (Resolver.ofFiles []) {} (.ofList [("x", "y")]) "$(X)\nGO 2\nb" with
  | error failure =>
      rw [built] at evaluated
      contradiction
  | ok script =>
      obtain ⟨tokens, flat, flow, last, tokens_eq, expands, -, pieces, -⟩ := batches_of_build built
      exact ⟨script, tokens, flat, flow, last, rfl, tokens_eq, expands, pieces⟩

end SqlScript
