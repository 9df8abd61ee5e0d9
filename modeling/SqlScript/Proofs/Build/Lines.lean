import SqlScript.Proofs.Build.Origins

/-!
# Line maps of built scripts

A script is built from the rows of characters that its tokens contribute, one row for each batch.
The characters stem from the files that were read and from the values of variables, and the line map
of each batch is that of its row.
-/

namespace SqlScript

/-- The text of a batch and the entries of its line map. -/
def Batch.lines (batch : Batch) : List Char × List Position :=
  (batch.text.toList, batch.lineMap.toList)

/-- The text of a row and the entries of its line map. -/
def Glyph.lines (row : List Glyph) : List Char × List Position :=
  (row.map Glyph.char, Glyph.lineMap row)

theorem Pending.lineMapTo_eq {pending : Pending} {row : List Glyph} (holds : pending.Holds row)
    (start : Position) :
    (pending.lineMapTo (pending.stop.getD start)).toList = Glyph.lineMap row := by
  unfold lineMapTo Glyph.lineMap
  rw [holds.atLineStart_eq]
  cases ends : Glyph.endsLine false row with
  | false => simpa using holds.lineMap_eq
  | true =>
      have row_ne : row ≠ [] := by
        rintro rfl
        contradiction
      have stop_eq := holds.stop_eq
      rw [List.getLast?_eq_some_getLast row_ne, Option.map_some] at stop_eq
      simp [stop_eq, holds.lineMap_eq, List.getLast?_eq_some_getLast row_ne]

namespace Draft

/-- The closed batches are numbered and show the rows `closed`; the pending one holds `row`. -/
structure Shows (draft : Draft) (closed : List (List Glyph)) (row : List Glyph) : Prop where
  lines_eq : draft.batches.toList.map Batch.lines = closed.map Glyph.lines
  index_eq : draft.batches.toList.map Batch.index = List.range draft.batches.toList.length
  pending : draft.pending.Holds row

variable {draft : Draft} {closed : List (List Glyph)} {row : List Glyph}

theorem shows_start (options : BuildOptions) (bindings : Variable.Table) :
    (start options bindings).Shows [] [] where
  lines_eq := rfl
  index_eq := rfl
  pending := Pending.holds_empty false

theorem batches_close (holds : draft.pending.Holds row) (repeatCount : Nat)
    (separator : Option Position) :
    (∃ batch, (draft.close repeatCount separator).batches.toList =
        draft.batches.toList ++ [batch] ∧
          batch.index = draft.batches.toList.length ∧ batch.lines = Glyph.lines row) ∨
      separator = none ∧ row = [] ∧
        (draft.close repeatCount separator).batches = draft.batches := by
  unfold close
  cases region_eq : draft.pending.region? separator with
  | none =>
      obtain ⟨-, no_first, no_separator⟩ := Pending.region?_eq_none_iff.mp region_eq
      exact .inr ⟨no_separator, holds.first_eq no_first, rfl⟩
  | some region =>
      obtain ⟨start, -, rfl⟩ := Option.map_eq_some_iff.mp region_eq
      have lines_eq : (draft.pending.text.toList,
          (draft.pending.lineMapTo (draft.pending.stop.getD start)).toList) = Glyph.lines row :=
        Prod.ext holds.text_eq (Pending.lineMapTo_eq holds start)
      refine .inl ?_
      dsimp only
      split
      · exact ⟨_, Array.toList_push, rfl, lines_eq⟩
      · exact ⟨_, Array.toList_push, rfl, lines_eq⟩

/-- Closing the pending batch turns its row into a closed one; only at the end of a script may an
empty row be left out. -/
theorem shows_close (shown : draft.Shows closed row) (repeatCount : Nat)
    (separator : Option Position) :
    (draft.close repeatCount separator).Shows (closed ++ [row]) [] ∨
      separator = none ∧ (draft.close repeatCount separator).Shows closed [] := by
  have pending : (draft.close repeatCount separator).pending.Holds [] := by
    rw [pending_close]
    exact Pending.holds_empty _
  rcases batches_close shown.pending repeatCount separator with
    ⟨batch, batches_eq, index_eq, lines_eq⟩ | ⟨no_separator, -, batches_eq⟩
  · refine .inl ⟨?_, ?_, pending⟩
    · rw [batches_eq, List.map_append, shown.lines_eq, List.map_append, List.map_singleton,
        lines_eq, List.map_singleton]
    · rw [batches_eq, List.map_append, shown.index_eq, List.map_singleton, index_eq,
        List.length_append, List.length_singleton, List.range_succ]
  · refine .inr ⟨no_separator, ?_, ?_, pending⟩
    · rw [batches_eq, shown.lines_eq]
    · rw [batches_eq, shown.index_eq]

theorem shows_of_batches {after : Draft} {row' : List Glyph} (shown : draft.Shows closed row)
    (batches_eq : after.batches = draft.batches) (pending : after.pending.Holds row') :
    after.Shows closed row' where
  lines_eq := by rw [batches_eq, shown.lines_eq]
  index_eq := by rw [batches_eq, shown.index_eq]
  pending := pending

end Draft

namespace Build

variable {expansion : Expansion} {token : Token} {tokens : List Token} {draft after : Draft}
  {closed : List (List Glyph)} {row : List Glyph} {flow : Flow}

/-- The rows of a script whose draft is `draft` before `tokens`, of which those behind the last
batch may be left out. -/
def Foretells (draft : Draft) (tokens : List Token) (rows : List (List Glyph)) : Prop :=
  ∃ closed row, draft.Shows closed row ∧ closed ++ Glyph.rows draft.bindings row tokens = rows

/-- The same when a walk has come behind a token; the rows behind the end of a script are left
out. -/
def ForetellsAt (flow : Flow) (draft : Draft) (tokens : List Token) (rows : List (List Glyph)) :
    Prop :=
  match flow with
  | .goOn => Foretells draft tokens rows
  | .stop => ∃ closed row tail, draft.Shows closed row ∧ closed ++ tail = rows

theorem foretells_goOn {rows : List (List Glyph)} {row' : List Glyph}
    (bindings_eq : after.bindings = draft.bindings.after token)
    (shown : after.Shows closed row')
    (rows_eq : closed ++ Glyph.rows (draft.bindings.after token) row' tokens = rows) :
    Foretells after tokens rows :=
  ⟨closed, row', shown, by rw [bindings_eq, rows_eq]⟩

/-- One token turns the rows that are foretold into batches, and foretells the same rows. -/
theorem foretells_accept {rows : List (List Glyph)}
    (not_include : token.kind.commandKind? ≠ some .includeFile)
    (accepted : accept expansion token draft = .ok (flow, after))
    (foretold : Foretells draft (token :: tokens) rows) : ForetellsAt flow after tokens rows := by
  have accepts := accepts_of_accept not_include accepted
  obtain ⟨bindings_eq, -⟩ := accepts.effect
  obtain ⟨closed, row, shown, rfl⟩ := foretold
  cases accepts with
  | literal is_literal =>
      have held := Pending.holds_appendLiteral shown.pending token
      refine foretells_goOn bindings_eq (Draft.shows_of_batches shown rfl held) ?_
      rw [Glyph.rows_of_literal is_literal]
  | @value name value kind_eq value_eq =>
      have held := Pending.holds_appendValue shown.pending token value
      refine foretells_goOn bindings_eq (Draft.shows_of_batches shown rfl held) ?_
      simp only [Glyph.rows, kind_eq, Glyph.ofToken, Variable.Table.get?_of_resolve value_eq,
        Option.getD_some]
  | @separator repeatCount kind_eq =>
      rcases Draft.shows_close shown repeatCount (some token.start) with closes | ⟨absurd, -⟩
      · refine foretells_goOn bindings_eq closes ?_
        simp only [Glyph.rows, kind_eq, List.append_assoc, List.singleton_append]
      · contradiction
  | list kind_eq name_eq | listVar kind_eq name_eq =>
      refine foretells_goOn bindings_eq (Draft.shows_of_batches shown rfl shown.pending) ?_
      simp only [Glyph.rows, kind_eq, name_eq]
  | reset kind_eq name_eq =>
      have held := Pending.holds_empty false
      refine foretells_goOn bindings_eq (Draft.shows_of_batches shown rfl held) ?_
      simp only [Glyph.rows, kind_eq, name_eq]
  | quit kind_eq name_eq =>
      refine ⟨closed, row, [], shown, ?_⟩
      simp only [Glyph.rows, kind_eq, name_eq]
  | exit kind_eq name_eq =>
      simp only [Glyph.rows, kind_eq, name_eq]
      rcases Draft.shows_close shown 1 none with closes | ⟨-, closes⟩
      · exact ⟨_, _, [], closes, List.append_nil _⟩
      · exact ⟨_, _, [row], closes, rfl⟩
  | setting kind_eq other _ pending_eq batches_eq =>
      have held : after.pending.Holds row := by
        rw [pending_eq]
        exact shown.pending
      refine foretells_goOn bindings_eq (Draft.shows_of_batches shown batches_eq held) ?_
      rw [Glyph.rows_of_setting kind_eq other]

theorem foretells_walk {rows : List (List Glyph)} {tokens : List Token}
    (no_include : ∀ token ∈ tokens, token.kind.commandKind? ≠ some .includeFile)
    (walked : walk expansion tokens draft = .ok (flow, after))
    (foretold : Foretells draft tokens rows) : ForetellsAt flow after [] rows :=
  walk_keeps (fun flow draft tokens => ForetellsAt flow draft tokens rows) foretells_accept id
    no_include walked foretold

end Build

/-- A script that is built shows the first rows of its expansion, and its batches are numbered. -/
theorem shows_of_build {resolver : Resolver} {options : BuildOptions} {bindings : Variable.Table}
    {text : String} {script : Script}
    (built : build resolver options bindings text = .ok script) :
    ∃ tokens flat flow last, tokenize .script text = .ok tokens ∧
      Expands resolver bindings tokens flat flow last ∧
      ∃ (draft : Draft) (closed : List (List Glyph)) (row : List Glyph) (tail : List (List Glyph)),
        draft.finish = script ∧ draft.Shows closed row ∧
          closed ++ tail = Glyph.rows bindings [] flat := by
  obtain ⟨tokens, tokens_eq, built_tokens⟩ := ok_of_bind built
  obtain ⟨⟨flow, draft⟩, walked, finished⟩ := ok_of_bind built_tokens
  obtain ⟨flat, expands, flat_walk⟩ := Build.expands_of_walk walked
  refine ⟨tokens, flat, flow, draft.bindings, tokens_eq, expands, ?_⟩
  have foretold : Build.Foretells (Draft.start options bindings) flat
      (Glyph.rows bindings [] flat) :=
    ⟨[], [], Draft.shows_start options bindings, rfl⟩
  have refuse : Build.Expansion := fun _ _ draft => .ok (.goOn, draft)
  have shown := Build.foretells_walk expands.not_include (flat_walk refuse) foretold
  cases flow with
  | goOn =>
      obtain ⟨closed, row, shown, rows_eq⟩ := shown
      rcases Draft.shows_close shown 1 none with closes | ⟨-, closes⟩
      · refine ⟨_, _, _, [], Except.ok.inj finished, closes, ?_⟩
        rw [List.append_nil, ← rows_eq, Glyph.rows]
      · exact ⟨_, _, _, [row], Except.ok.inj finished, closes, rows_eq⟩
  | stop =>
      obtain ⟨closed, row, tail, shown, rows_eq⟩ := shown
      exact ⟨_, _, _, tail, Except.ok.inj finished, shown, rows_eq⟩

/-- Each batch of a script that is built stands at its index and shows the row of that index. -/
theorem lines_of_build {resolver : Resolver} {options : BuildOptions} {bindings : Variable.Table}
    {text : String} {script : Script}
    (built : build resolver options bindings text = .ok script) :
    ∃ tokens flat flow last, tokenize .script text = .ok tokens ∧
      Expands resolver bindings tokens flat flow last ∧
      ∀ (place : Nat) (batch : Batch), script.batches[place]? = some batch →
        batch.index = place ∧ ∃ row, (Glyph.rows bindings [] flat)[place]? = some row ∧
          batch.lines = Glyph.lines row := by
  obtain ⟨tokens, flat, flow, last, tokens_eq, expands, draft, closed, pending, tail, rfl, shown,
    rows_eq⟩ := shows_of_build built
  refine ⟨tokens, flat, flow, last, tokens_eq, expands, fun place batch found => ?_⟩
  obtain ⟨blanks, batches_eq, -⟩ := Draft.batches_finish draft
  have found_draft : draft.batches.toList[place]? = some batch := by
    rw [← Array.getElem?_toList] at found
    obtain ⟨in_range, -⟩ := List.getElem?_eq_some_iff.mp found
    rw [batches_eq, List.getElem?_append_left in_range, found]
  obtain ⟨in_range, -⟩ := List.getElem?_eq_some_iff.mp found_draft
  constructor
  · have index_at := congrArg (·[place]?) shown.index_eq
    rw [List.getElem?_map, found_draft, List.getElem?_range in_range] at index_at
    exact Option.some.inj index_at
  · have lines_at := congrArg (·[place]?) shown.lines_eq
    simp only [List.getElem?_map, found_draft, Option.map_some] at lines_at
    obtain ⟨row, row_at, row_lines⟩ := Option.map_eq_some_iff.mp lines_at.symm
    obtain ⟨in_closed, -⟩ := List.getElem?_eq_some_iff.mp row_at
    refine ⟨row, ?_, row_lines.symm⟩
    rw [← rows_eq, List.getElem?_append_left in_closed, row_at]

end SqlScript
