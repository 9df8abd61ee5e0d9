import SqlScript.Proofs.Build.Closings
import SqlScript.Proofs.Build.Sources
import SqlScript.Proofs.Token.Forms

/-!
# Spans of batches

In a script without commands and references a batch is the text between two separators.  Its span
leaves out the rest of the line of the separator before it, unless the text ends with that line.
The beginning of the span is settled while the text is gathered: a batch is in one of five stages
(`Pending.Opens`), and each character leads from one stage to another.
-/

namespace SqlScript

/-- The text of a batch is a part that its span skips and a part that it covers. -/
inductive Batch.Covers : (behindSeparator : Bool) → (text skipped covered : List Char) → Prop
  | beyondLine {line rest : List Char} : '\n' ∉ line → rest ≠ [] →
      Covers true (line ++ '\n' :: rest) (line ++ ['\n']) rest
  | whole {behindSeparator : Bool} {text : List Char} :
      (behindSeparator = true → ∀ line rest, text = line ++ '\n' :: rest → '\n' ∉ line →
        rest = []) →
      Covers behindSeparator text [] text

namespace Pending

/-- What the pending batch has noted of its beginning when it has gathered a text that begins at
`origin`. -/
inductive Opens (origin : Position) : (behindSeparator : Bool) → (text : List Char) →
    (start : Option Position) → (onSeparatorLine : Bool) → Prop
  | fresh : Opens origin false [] none false
  | begun {text : List Char} : text ≠ [] → Opens origin false text (some origin) false
  | onLine {line : List Char} : '\n' ∉ line → Opens origin true line none true
  | behindLine {line : List Char} : '\n' ∉ line → Opens origin true (line ++ ['\n']) none false
  | beyond {line rest : List Char} : '\n' ∉ line → rest ≠ [] →
      Opens origin true (line ++ '\n' :: rest) (some (origin.advance (line ++ ['\n']))) false

variable {pending : Pending} {origin : Position} {behindSeparator : Bool} {text : List Char}

theorem opens_push
    (opens : Opens origin behindSeparator text pending.start pending.onSeparatorLine) (c : Char) :
    Opens origin behindSeparator (text ++ [c]) (pending.push (origin.advance text) c).start
      (pending.push (origin.advance text) c).onSeparatorLine := by
  unfold push
  generalize pending.start = start, pending.onSeparatorLine = onSeparatorLine at opens
  cases opens with
  | fresh => exact .begun (by simp)
  | begun => exact .begun (by simp)
  | onLine no_feed =>
      by_cases feed : c = '\n'
      · subst feed
        exact .behindLine no_feed
      · simp only [if_true, Bool.true_and, bne_iff_ne.mpr feed]
        exact .onLine (by simp [no_feed, Ne.symm feed])
  | behindLine no_feed =>
      have beyond : Opens origin true _ _ false := .beyond no_feed (List.cons_ne_nil c [])
      simpa using beyond
  | @beyond line rest no_feed rest_ne =>
      have beyond : Opens origin true _ _ false :=
        .beyond no_feed (List.append_ne_nil_of_left_ne_nil rest_ne [c])
      simpa using beyond

theorem opens_pushLiteral
    (opens : Opens origin behindSeparator text pending.start pending.onSeparatorLine)
    (more : List Char) :
    let after := pushLiteral (origin.advance text) more pending
    Opens origin behindSeparator (text ++ more) after.start after.onSeparatorLine := by
  induction more generalizing pending text with
  | nil => simpa [pushLiteral] using opens
  | cons c more ih =>
      have behind := ih (opens_push opens c)
      rw [Position.advance_append] at behind
      rw [List.append_assoc] at behind
      exact behind

/-- The pending batch has gathered a text that stands at `origin` in its file. -/
structure Lies (origin : Position) (behindSeparator : Bool) (text : List Char)
    (pending : Pending) : Prop where
  text_eq : pending.text.toList = text
  opens : Opens origin behindSeparator text pending.start pending.onSeparatorLine
  first_eq : pending.first = if text = [] then none else some origin
  stop_eq : pending.stop = if text = [] then none else some (origin.advance text)

theorem lies_appendLiteral {token : Token} (lies : pending.Lies origin behindSeparator text)
    (start_eq : token.start = origin.advance text)
    (stop_eq : token.stop = token.start.advance token.text.toList) :
    (pending.appendLiteral token.start token.stop token.text).Lies origin behindSeparator
      (text ++ token.text.toList) := by
  have opens := opens_pushLiteral lies.opens token.text.toList
  rw [← start_eq] at opens
  unfold appendLiteral contribute
  split
  · rename_i nothing
    rw [List.isEmpty_iff.mp nothing, List.append_nil]
    exact lies
  · rename_i something
    have text_ne : text ++ token.text.toList ≠ [] := by
      simpa using fun _ => something
    refine ⟨?_, opens, ?_, ?_⟩
    · rw [toList_pushLiteral, lies.text_eq]
    · rw [lies.first_eq, start_eq, if_neg text_ne]
      split
      · rename_i text_eq
        simp [text_eq]
      · rfl
    · rw [stop_eq, start_eq, if_neg text_ne, ← Position.advance_append]

/-- A text has one first line feed. -/
theorem eq_of_first_feed {line line' rest rest' : List Char} (no_feed : '\n' ∉ line)
    (no_feed' : '\n' ∉ line') (split : line ++ '\n' :: rest = line' ++ '\n' :: rest') :
    line = line' ∧ rest = rest' := by
  have run {line rest : List Char} (no_feed : '\n' ∉ line) :
      Text.Run Lexeme.isInLine (line ++ '\n' :: rest) line ('\n' :: rest) :=
    ⟨rfl, fun c member => bne_iff_ne.mpr fun feed => no_feed (feed ▸ member),
      by simp [Lexeme.isInLine]⟩
  have first : Text.Run Lexeme.isInLine _ line ('\n' :: rest) := run no_feed
  rw [split] at first
  obtain ⟨line_eq, rest_eq⟩ := first.unique (run no_feed')
  exact ⟨line_eq, (List.cons.inj rest_eq).2⟩

/-- A batch without text has no beginning. -/
theorem begin?_of_lies_nil (lies : pending.Lies origin behindSeparator []) :
    pending.begin? = none := by
  obtain ⟨-, opens, first_eq, -⟩ := lies
  have no_start : pending.start = none := by
    generalize gathered_eq : [] = gathered, pending.start = start,
      pending.onSeparatorLine = onSeparatorLine at opens
    cases opens with
    | fresh | onLine | behindLine => rfl
    | begun text_ne => exact (text_ne gathered_eq.symm).elim
    | beyond => simp at gathered_eq
  rw [begin?, no_start, first_eq]
  rfl

/-- Wherever the batch is closed, its region begins behind what its span skips and ends behind its
text. -/
theorem covers_of_lies (lies : pending.Lies origin behindSeparator text)
    {separator : Option Position} {start : Position}
    (at_separator : ∀ position ∈ separator, position = origin.advance text)
    (start_eq : (pending.begin? <|> separator) = some start) :
    (∃ skipped covered, Batch.Covers behindSeparator text skipped covered ∧
        text = skipped ++ covered ∧ start = origin.advance skipped) ∧
      pending.stop.getD start = origin.advance text := by
  have of_nil (text_eq : text = []) : start = origin.advance text := by
    refine at_separator start ?_
    rwa [begin?_of_lies_nil (text_eq ▸ lies)] at start_eq
  obtain ⟨-, opens, first_eq, stop_eq⟩ := lies
  have at_origin (no_start : pending.start = none) : start = origin := by
    by_cases text_eq : text = []
    · simpa [text_eq] using of_nil text_eq
    · rw [begin?, no_start, first_eq, if_neg text_eq] at start_eq
      exact (Option.some.inj start_eq).symm
  have whole (nothing_beyond : behindSeparator = true → ∀ line rest, text = line ++ '\n' :: rest →
      '\n' ∉ line → rest = []) (start_eq : start = origin) :
      ∃ skipped covered, Batch.Covers behindSeparator text skipped covered ∧
        text = skipped ++ covered ∧ start = origin.advance skipped :=
    ⟨[], text, .whole nothing_beyond, rfl, start_eq⟩
  constructor
  · generalize start_found : pending.start = found,
      pending.onSeparatorLine = onSeparatorLine at opens
    cases opens with
    | fresh => exact whole (by simp) (at_origin start_found)
    | begun =>
        rw [begin?, start_found] at start_eq
        exact whole (by simp) (Option.some.inj start_eq).symm
    | onLine no_feed =>
        refine whole (fun _ line rest text_eq _ => ?_) (at_origin start_found)
        simp [text_eq] at no_feed
    | behindLine no_feed =>
        refine whole (fun _ line rest text_eq no_feed' => ?_) (at_origin start_found)
        exact (eq_of_first_feed no_feed no_feed' text_eq).2.symm
    | @beyond line rest no_feed rest_ne =>
        rw [begin?, start_found] at start_eq
        exact ⟨_, _, .beyondLine no_feed rest_ne, by simp, (Option.some.inj start_eq).symm⟩
  · rw [stop_eq]
    by_cases text_eq : text = []
    · rw [if_pos text_eq, Option.getD_none]
      exact of_nil text_eq
    · rw [if_neg text_eq, Option.getD_some]

end Pending

/-- The tokens `own` stand between two separators or at an end of the row, and `place` separators
stand before them. -/
structure Token.Stretch (tokens : List Token) (place : Nat) (earlier own later : List Token) :
    Prop where
  split : tokens = earlier ++ (own ++ later)
  literal : ∀ token ∈ own, token.kind.isLiteral = true
  count : (earlier.filter fun token => token.kind.isSeparator).length = place
  opens : ∀ token ∈ earlier.getLast?, token.kind.isSeparator = true
  closes : ∀ token ∈ later.head?, token.kind.isSeparator = true

namespace Build

variable {resolver : Resolver} {limit : Nat} {options : BuildOptions} {bindings : Variable.Table}
  {tokens earlier own : List Token} {moment next : Moment}

theorem accept_of_isLiteral {inclusion : Expansion} {token : Token} {draft : Draft}
    (is_literal : token.kind.isLiteral = true) :
    accept inclusion token draft = .ok (.goOn,
      { draft with
        pending := draft.pending.appendLiteral token.start token.stop token.text }) := by
  unfold accept
  cases kind_eq : token.kind <;> simp_all [TokenKind.isLiteral]

/-- A walk through a row without commands and references has come behind `own`, which is pending. -/
structure Moment.Cuts (tokens earlier own : List Token) (moment : Moment) : Prop where
  in_script : moment.nested = []
  split : tokens = earlier ++ (own ++ moment.tokens)
  literal : ∀ token ∈ own, token.kind.isLiteral = true
  count : (earlier.filter fun token => token.kind.isSeparator).length = moment.draft.batches.size
  opens : ∀ token ∈ earlier.getLast?, token.kind.isSeparator = true
  lies : moment.draft.pending.Lies ((Position.startOf .script).advance (Token.textOf earlier))
    (!earlier.isEmpty) (Token.textOf own)

theorem Moment.cuts_of_reaches {text : String} (tokens_eq : tokenize .script text = .ok tokens)
    (plain : ∀ token ∈ tokens, token.kind.isLiteral = true ∨ token.kind.isSeparator = true)
    (reaches : (first options bindings tokens).Reaches resolver limit moment) :
    ∃ earlier own, Cuts tokens earlier own moment := by
  induction reaches with
  | refl =>
      refine ⟨[], [], rfl, rfl, by simp, rfl, by simp, rfl, .fresh, rfl, rfl⟩
  | tail _ step ih =>
      obtain ⟨earlier, own, in_script, split, literal, count, opens, lies⟩ := ih
      cases moves_of_advance step with
      | @takes nested token rest draft after no_inclusion accepted =>
          dsimp only at in_script split count lies
          have split_here : tokens = (earlier ++ own) ++ token :: rest := by simp [split]
          obtain ⟨-, start_eq, stop_eq⟩ :=
            Lexing.coordinates_of_tokenize (split_here ▸ tokens_eq)
          rw [Token.textOf_append, Position.advance_append] at start_eq
          rcases plain token (by simp [split]) with is_literal | is_separator
          · rw [accept_of_isLiteral is_literal] at accepted
            cases accepted
            refine ⟨earlier, own ++ [token], in_script, by simp [split], ?_, count, opens, ?_⟩
            · exact List.forall_mem_append.mpr ⟨literal, List.forall_mem_singleton.mpr is_literal⟩
            · simpa using Pending.lies_appendLiteral lies start_eq stop_eq
          · obtain ⟨repeatCount, kind_eq⟩ := TokenKind.eq_separator_of_isSeparator is_separator
            simp only [accept, kind_eq] at accepted
            cases accepted
            obtain ⟨batch, pushed⟩ := draft.close_at_separator repeatCount token.start
            have none_inside : own.filter (fun token => token.kind.isSeparator) = [] := by
              refine List.filter_eq_nil_iff.mpr fun other member => ?_
              simpa using TokenKind.not_isSeparator_of_isLiteral (literal other member)
            refine ⟨earlier ++ (own ++ [token]), [], in_script, by simp [split], by simp, ?_, ?_,
              ?_⟩
            · rw [pushed, Array.size_push, ← count]
              simp [none_inside, is_separator]
            · simp [is_separator]
            · dsimp only
              rw [Draft.pending_close]
              have behind : (!(earlier ++ (own ++ [token])).isEmpty) = true := by simp
              rw [behind]
              exact ⟨rfl, .onLine List.not_mem_nil, rfl, rfl⟩
      | @enters nested token rest inside draft command path inclusion =>
          obtain ⟨kind_eq, -⟩ := TokenKind.inclusion?_eq_some_iff.mp inclusion
          have no_command := plain token (by simp [split])
          simp [kind_eq, TokenKind.isLiteral, TokenKind.isSeparator] at no_command
      | leaves => cases in_script

/-- A batch of a plain script is the text between two separators, closed at the second one. -/
theorem stretch_of_closes {text : String} {batch : Batch}
    (tokens_eq : tokenize .script text = .ok tokens)
    (plain : ∀ token ∈ tokens, token.kind.isLiteral = true ∨ token.kind.isSeparator = true)
    (cuts : moment.Cuts tokens earlier own) (closes : moment.Closes batch) :
    Token.Stretch tokens moment.draft.batches.size earlier own moment.tokens ∧
      ∃ separator, moment.draft.Closed separator batch ∧ ∀ position ∈ separator,
        (∃ token ∈ moment.tokens.head?, position = token.start) ∧
          position = ((Position.startOf .script).advance (Token.textOf earlier)).advance
            (Token.textOf own) := by
  obtain ⟨in_script, split, literal, count, opens, lies⟩ := cuts
  cases closes with
  | @separator token repeatCount head_eq kind_eq closed =>
      obtain ⟨rest, tokens_here⟩ : ∃ rest, moment.tokens = token :: rest :=
        List.head?_eq_some_iff.mp head_eq
      have split_here : tokens = (earlier ++ own) ++ token :: rest := by
        rw [split, tokens_here, List.append_assoc]
      obtain ⟨-, start_eq, -⟩ := Lexing.coordinates_of_tokenize (split_here ▸ tokens_eq)
      rw [Token.textOf_append, Position.advance_append] at start_eq
      refine ⟨⟨split, literal, count, opens, ?_⟩, some token.start, closed, ?_⟩
      · intro other other_head
        cases head_eq.symm.trans other_head
        rw [kind_eq]
        rfl
      · rintro position ⟨⟩
        exact ⟨⟨token, head_eq, rfl⟩, start_eq⟩
  | last at_end closed =>
      refine ⟨⟨split, literal, count, opens, fun token head_eq => ?_⟩, none, closed, by simp⟩
      have member : token ∈ tokens := by
        rw [split]
        exact List.mem_append_right _ (List.mem_append_right _ (List.mem_of_mem_head? head_eq))
      have ends := at_end token head_eq
      simp [TokenKind.endsScript, TokenKind.commandKind?_of_plain (plain token member)] at ends

end Build

/-- A separator stands on one line. -/
theorem Lexing.one_line_of_separator {file : SourceFile} {content : String}
    {earlier later : List Token} {separator : Token}
    (tokens_eq : tokenize file content = .ok (earlier ++ separator :: later))
    (separates : separator.kind.isSeparator = true) : '\n' ∉ separator.text.toList := by
  have emits : (ofText file content).Emits (Token.textOf earlier) separator :=
    ⟨earlier, later, by rw [ofText_of_tokenize tokens_eq], rfl⟩
  obtain ⟨after, -, written⟩ := writtenAs_of_emits emits
  obtain ⟨repeatCount, kind_eq⟩ := TokenKind.eq_separator_of_isSeparator separates
  rw [kind_eq] at written
  obtain ⟨digits, line, -⟩ := written
  exact fun feed => absurd (Lexeme.isInLine_of_separatorLine line _ feed) (by decide)

/-- Behind a separator and the rest of its line the next line begins. -/
theorem Position.below_separator {content : String} {front behind : List Token} {separator : Token}
    (tokens_eq : tokenize .script content = .ok ((front ++ [separator]) ++ behind))
    (separates : separator.kind.isSeparator = true) {line : List Char} (no_feed : '\n' ∉ line) :
    let below := ((startOf .script).advance (Token.textOf (front ++ [separator]))).advance
      (line ++ ['\n'])
    below.line = separator.start.line + 1 ∧ below.column = 1 := by
  have tokens_eq : tokenize .script content = .ok (front ++ separator :: behind) := by
    simpa using tokens_eq
  obtain ⟨-, start_eq, -⟩ := Lexing.coordinates_of_tokenize tokens_eq
  have one_line := Lexing.one_line_of_separator tokens_eq separates
  have place_eq :
      ((startOf .script).advance (Token.textOf (front ++ [separator]))).advance (line ++ ['\n']) =
        separator.start.advance (separator.text.toList ++ (line ++ ['\n'])) := by
    rw [start_eq, ← advance_append, ← advance_append]
    simp
  dsimp only
  rw [place_eq]
  refine ⟨?_, column_advance_of_feed _ (by simp)⟩
  rw [line_advance]
  simp [List.count_eq_zero_of_not_mem one_line, List.count_eq_zero_of_not_mem no_feed]

/-- The slice of a text between two places is what stands between them. -/
theorem Position.extract_of_marks {text : String} {file : SourceFile} {start stop : Position}
    {before between after : List Char} (text_eq : text.toList = before ++ between ++ after)
    (start_marks : start.Marks file before) (stop_marks : stop.Marks file (before ++ between)) :
    String.Pos.Raw.extract text ⟨start.offset⟩ ⟨stop.offset⟩ = String.ofList between := by
  have offset_eq {position : Position} {place : List Char} (marks : position.Marks file place) :
      position.offset = String.utf8Len place := by
    rw [marks.position_eq, offset_advance]
    exact Nat.zero_add _
  rw [← String.ofList_toList (s := text), text_eq, offset_eq start_marks, offset_eq stop_marks,
    String.utf8Len_append]
  exact String.extract_of_valid before between after

/-- The batch is the text of `own`, and its span is the part of it that is covered. -/
structure Batch.Spanned (text : String) (earlier own later : List Token)
    (skipped covered : List Char) (batch : Batch) : Prop where
  text_eq : batch.text.toList = Token.textOf own
  covers : Batch.Covers (!earlier.isEmpty) batch.text.toList skipped covered
  start_marks : batch.start.Marks .script (Token.textOf earlier ++ skipped)
  stop_marks : batch.stop.Marks .script (Token.textOf earlier ++ batch.text.toList)
  slice_eq : String.Pos.Raw.extract text ⟨batch.start.offset⟩ ⟨batch.stop.offset⟩ =
    String.ofList covered
  /-- A batch with characters beyond the line of the separator before it begins on the next line. -/
  below : ∀ separator ∈ earlier.getLast?, ∀ line rest,
    batch.text.toList = line ++ '\n' :: rest → '\n' ∉ line → rest ≠ [] →
      batch.start.line = separator.start.line + 1 ∧ batch.start.column = 1
  /-- A batch without text has the empty span at the separator that closes it. -/
  empty : batch.text = "" → ∃ separator ∈ later.head?, separator.kind.isSeparator = true ∧
    batch.start = separator.start ∧ batch.stop = separator.start

/-- In a script without commands and references each batch is the text between two separators.  Its
span skips the rest of the line of the separator before it if there are characters beyond that line,
and covers the whole text otherwise. -/
theorem spans_of_build {resolver : Resolver} {options : BuildOptions} {bindings : Variable.Table}
    {text : String} {tokens : List Token} {script : Script} {index : Nat} {batch : Batch}
    (tokens_eq : tokenize .script text = .ok tokens)
    (plain : ∀ token ∈ tokens, token.kind.isLiteral = true ∨ token.kind.isSeparator = true)
    (built : build resolver options bindings text = .ok script)
    (found : script.batches[index]? = some batch) :
    ∃ earlier own later skipped covered, Token.Stretch tokens index earlier own later ∧
      batch.Spanned text earlier own later skipped covered := by
  obtain ⟨tokens', moment, tokens_eq', reaches, rfl, closes⟩ := Build.closes_of_build built found
  cases tokens_eq.symm.trans tokens_eq'
  obtain ⟨earlier, own, cuts⟩ := Build.Moment.cuts_of_reaches tokens_eq plain reaches
  obtain ⟨stretch, separator, closed, at_separator⟩ :=
    Build.stretch_of_closes tokens_eq plain cuts closes
  have text_eq : batch.text.toList = Token.textOf own := by
    rw [closed.text_eq, cuts.lies.text_eq]
  obtain ⟨⟨skipped, covered, covers, parts, start_eq⟩, stop_eq⟩ :=
    Pending.covers_of_lies cuts.lies (fun position member => (at_separator position member).2)
      closed.start_eq
  rw [← closed.stop_eq] at stop_eq
  rw [← text_eq] at covers parts stop_eq
  have start_marks : batch.start.Marks .script (Token.textOf earlier ++ skipped) := by
    rw [start_eq, ← Position.advance_append]
    exact Position.marks_advance _ _
  have stop_marks : batch.stop.Marks .script (Token.textOf earlier ++ batch.text.toList) := by
    rw [stop_eq, ← Position.advance_append]
    exact Position.marks_advance _ _
  have source_eq : text.toList =
      (Token.textOf earlier ++ skipped) ++ covered ++ Token.textOf moment.tokens := by
    rw [← textOf_of_tokenize tokens_eq, cuts.split, Token.textOf_append, Token.textOf_append,
      ← text_eq, parts]
    simp
  refine ⟨earlier, own, moment.tokens, skipped, covered, stretch,
    ⟨text_eq, covers, start_marks, stop_marks, ?_, ?_, ?_⟩⟩
  · rw [parts, ← List.append_assoc] at stop_marks
    exact Position.extract_of_marks source_eq start_marks stop_marks
  · intro separator separator_eq line rest line_eq no_feed rest_ne
    obtain ⟨front, rfl⟩ := List.getLast?_eq_some_iff.mp separator_eq
    have below := Position.below_separator (cuts.split ▸ tokens_eq)
      (cuts.opens separator separator_eq) no_feed
    have behind : (!(front ++ [separator]).isEmpty) = true := by simp
    rw [behind] at covers
    suffices skipped = line ++ ['\n'] by rwa [start_eq, this]
    generalize batch.text.toList = gathered at covers line_eq
    cases covers with
    | beyondLine no_feed' => rw [(Pending.eq_of_first_feed no_feed' no_feed line_eq).1]
    | whole nothing_beyond =>
        exact (rest_ne (nothing_beyond rfl line rest line_eq no_feed)).elim
  · intro empty
    rw [empty] at parts stop_eq
    obtain ⟨rfl, rfl⟩ := List.append_eq_nil_iff.mp parts.symm
    have no_text : Token.textOf own = [] := by rw [← text_eq, empty]; rfl
    have lies := cuts.lies
    rw [no_text] at lies
    have closed_at := closed.start_eq
    rw [Pending.begin?_of_lies_nil lies] at closed_at
    obtain ⟨⟨token, head_eq, start_at⟩, -⟩ := at_separator batch.start closed_at
    exact ⟨token, head_eq, stretch.closes token head_eq, start_at,
      by rw [← start_at, start_eq, stop_eq]; rfl⟩

/-- The second batch stands between a separator with a comment behind it and another separator. -/
theorem span_of_batch_behind_comment :
    let text := "GO -- c\nx\nGO 2"
    ∃ tokens script batch, tokenize .script text = .ok tokens ∧
      (∀ token ∈ tokens, token.kind.isLiteral = true ∨ token.kind.isSeparator = true) ∧
        build (Resolver.ofFiles []) {} (.ofList []) text = .ok script ∧
          script.batches[1]? = some batch ∧
            ∃ earlier own later skipped covered, Token.Stretch tokens 1 earlier own later ∧
              batch.Spanned text earlier own later skipped covered := by
  intro text
  have lexed : (tokenize .script text).toOption.map (fun tokens => tokens.all fun token =>
      token.kind.isLiteral || token.kind.isSeparator) = some true := by
    decide +kernel +zetaReduce
  have evaluated : (build (Resolver.ofFiles []) {} (.ofList []) text).toOption.map
      (fun script => script.batches.size) = some 2 := by
    decide +kernel +zetaReduce
  cases tokens_eq : tokenize .script text with
  | error failure =>
      rw [tokens_eq] at lexed
      contradiction
  | ok tokens =>
      rw [tokens_eq] at lexed
      have plain : ∀ token ∈ tokens,
          token.kind.isLiteral = true ∨ token.kind.isSeparator = true := by
        simpa using Option.some.inj lexed
      cases built : build (Resolver.ofFiles []) {} (.ofList []) text with
      | error failure =>
          rw [built] at evaluated
          contradiction
      | ok script =>
          rw [built] at evaluated
          have size_eq : script.batches.size = 2 := Option.some.inj evaluated
          have found := Array.getElem?_eq_getElem (show 1 < script.batches.size by omega)
          exact ⟨tokens, script, _, rfl, plain, rfl, found,
            spans_of_build tokens_eq plain built found⟩

end SqlScript
