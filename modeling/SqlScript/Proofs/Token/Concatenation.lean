import SqlScript.Proofs.Token.Resumption

/-!
# Lexing joined texts

Behind a text that ends a line, another text is lexed as if it stood alone.  No scan looks beyond
the last line feed of its source, so what follows has no say in the tokens before it; and where a
line ends outside quotes and comments, the lexer knows no more than at the beginning of a file.
Only the positions differ, which count the lines and the bytes of both texts.
-/

namespace SqlScript

namespace Text

variable {source run rest : List Char}

/-- A run that ends before the end of a text is not made longer by what follows the text. -/
theorem Run.append {test : Char → Bool} (split : Run test source run rest) (rest_ne : rest ≠ [])
    (more : List Char) :
    Run test (source ++ more) run (rest ++ more) where
  append_eq := by rw [← split.append_eq, List.append_assoc]
  inside := split.inside
  boundary := by
    rw [List.head?_append_of_ne_nil rest rest_ne]
    exact split.boundary

/-- A run without line feeds does not reach beyond the one that ends a text. -/
theorem getLast?_dropWhile (test : Char → Bool) (stops : test '\n' = false)
    (feed : source.getLast? = some '\n') :
    (source.dropWhile test).getLast? = some '\n' := by
  have split := run_takeWhile test source
  have rest_ne : source.dropWhile test ≠ [] := by
    intro none_left
    have whole : source.takeWhile test = source := by
      simpa [none_left] using split.append_eq
    have inside := split.inside
    rw [whole] at inside
    have feed_inside := inside '\n' (List.mem_of_getLast? feed)
    rw [stops] at feed_inside
    contradiction
  rwa [← split.append_eq, List.getLast?_append_of_ne_nil _ rest_ne] at feed

theorem ne_nil_of_feed (feed : source.getLast? = some '\n') : source ≠ [] := by
  rintro rfl
  contradiction

theorem run_append_of_feed (test : Char → Bool) (stops : test '\n' = false)
    (feed : source.getLast? = some '\n') (more : List Char) :
    Run test (source ++ more) (source.takeWhile test) (source.dropWhile test ++ more) :=
  (run_takeWhile test source).append (ne_nil_of_feed (getLast?_dropWhile test stops feed)) more

theorem takeWhile_append_of_feed (test : Char → Bool) (stops : test '\n' = false)
    (feed : source.getLast? = some '\n') (more : List Char) :
    (source ++ more).takeWhile test = source.takeWhile test :=
  (run_append_of_feed test stops feed more).takeWhile_eq

theorem dropWhile_append_of_feed (test : Char → Bool) (stops : test '\n' = false)
    (feed : source.getLast? = some '\n') (more : List Char) :
    (source ++ more).dropWhile test = source.dropWhile test ++ more :=
  (run_append_of_feed test stops feed more).dropWhile_eq

/-- A text that ends with a line feed is a line feed, or has it behind its first character. -/
theorem feed_cons {c : Char} (feed : (c :: rest).getLast? = some '\n') :
    c = '\n' ∧ rest = [] ∨ rest.getLast? = some '\n' := by
  cases rest with
  | nil => exact .inl ⟨by simpa using feed, rfl⟩
  | cons d rest => exact .inr (by simpa using feed)

end Text

namespace Lexeme

open Text (takeWhile_append_of_feed dropWhile_append_of_feed getLast?_dropWhile feed_cons)

variable {source rest : List Char}

/-- The lexeme if more text follows. -/
def followedBy (more : List Char) (lexeme : Lexeme) : Lexeme :=
  { lexeme with rest := lexeme.rest ++ more }

theorem startsLineComment_append (feed : source.getLast? = some '\n') (more : List Char) :
    startsLineComment (source ++ more) = startsLineComment source := by
  match source with
  | [] => contradiction
  | [c] =>
      obtain rfl : c = '\n' := by simpa using feed
      rfl
  | c :: d :: rest =>
      unfold startsLineComment
      split <;> split <;> simp_all

theorem endsLine_append (feed : source.getLast? = some '\n') (more : List Char) :
    endsLine (source ++ more) = endsLine source := by
  cases source with
  | nil => contradiction
  | cons c rest =>
      have comment_eq := startsLineComment_append feed more
      rw [List.cons_append] at comment_eq ⊢
      rw [endsLine, endsLine, comment_eq]

theorem opensToken_append (feed : source.getLast? = some '\n') (more : List Char) :
    opensToken (source ++ more) = opensToken source := by
  match source with
  | [] => contradiction
  | [c] =>
      obtain rfl : c = '\n' := by simpa using feed
      rfl
  | c :: d :: rest =>
      unfold opensToken
      split <;> split <;> simp_all

theorem separator?_of_feed (rest : List Char) : separator? ('\n' :: rest) = none := by
  cases rest with
  | nil => rfl
  | cons o rest => simp [separator?, Text.equalsIgnoringCase, Text.lowercase]

/-- A separator is looked for on its own line only. -/
theorem separator?_append (feed : source.getLast? = some '\n') (more : List Char) :
    separator? (source ++ more) = (separator? source).map (Except.map (followedBy more)) := by
  match source with
  | [] => contradiction
  | [c] =>
      obtain rfl : c = '\n' := by simpa using feed
      exact separator?_of_feed more
  | g :: o :: behind =>
      have feed_from : (o :: behind).getLast? = some '\n' := by simpa using feed
      rcases feed_cons feed_from with ⟨rfl, rfl⟩ | feed_behind
      · simp [separator?, Text.equalsIgnoringCase, Text.lowercase]
      · have feed_tail := getLast?_dropWhile isIndent rfl feed_behind
        have feed_rest := getLast?_dropWhile Char.isDigit rfl feed_tail
        have feed_pad := getLast?_dropWhile isIndent rfl feed_rest
        have head_eq : (behind ++ more).head? = behind.head? :=
          List.head?_append_of_ne_nil behind (Text.ne_nil_of_feed feed_behind)
        simp only [List.cons_append, separator?, endsLine_append feed_behind, head_eq,
          takeWhile_append_of_feed isIndent rfl feed_behind,
          dropWhile_append_of_feed isIndent rfl feed_behind,
          takeWhile_append_of_feed Char.isDigit rfl feed_tail,
          dropWhile_append_of_feed Char.isDigit rfl feed_tail,
          dropWhile_append_of_feed isIndent rfl feed_rest, endsLine_append feed_pad]
        split
        · split
          · split
            · rfl
            · split <;> rfl
          · rfl
        · rfl

theorem commandLine_append (kind : CommandKind) (lead : List Char)
    (feed : source.getLast? = some '\n') (more : List Char) :
    commandLine kind lead (source ++ more) = (commandLine kind lead source).followedBy more := by
  have feed_tail := getLast?_dropWhile isIndent rfl feed
  simp only [commandLine, followedBy, takeWhile_append_of_feed isIndent rfl feed,
    dropWhile_append_of_feed isIndent rfl feed,
    takeWhile_append_of_feed isInLine rfl feed_tail,
    dropWhile_append_of_feed isInLine rfl feed_tail]

/-- A command is read from its own line only. -/
theorem commandFrom_append (feed : source.getLast? = some '\n') (more : List Char) :
    commandFrom (source ++ more) = (commandFrom source).map (followedBy more) := by
  have feed_tail := getLast?_dropWhile Text.isWordCharacter rfl feed
  have feed_object := getLast?_dropWhile isIndent rfl feed_tail
  have feed_rest := getLast?_dropWhile Text.isWordCharacter rfl feed_object
  simp only [commandFrom, takeWhile_append_of_feed Text.isWordCharacter rfl feed,
    dropWhile_append_of_feed Text.isWordCharacter rfl feed,
    takeWhile_append_of_feed isIndent rfl feed_tail,
    dropWhile_append_of_feed isIndent rfl feed_tail,
    takeWhile_append_of_feed Text.isWordCharacter rfl feed_object,
    dropWhile_append_of_feed Text.isWordCharacter rfl feed_object]
  split
  · split
    · rw [commandLine_append _ _ feed_rest]
      rfl
    · rfl
  · split
    · rw [commandLine_append _ _ feed_tail]
      rfl
    · rfl

theorem directive?_append (feed : source.getLast? = some '\n') (more : List Char) :
    directive? (source ++ more) = (directive? source).map (Except.map (followedBy more)) := by
  cases source with
  | nil => contradiction
  | cons c rest =>
      by_cases colon : c = ':'
      · subst colon
        have feed_rest := (feed_cons feed).resolve_left (by simp)
        have head_eq : (rest ++ more).head? = rest.head? :=
          List.head?_append_of_ne_nil rest (Text.ne_nil_of_feed feed_rest)
        simp only [List.cons_append, directive?, head_eq, commandFrom_append feed_rest]
        split <;> rfl
      · have separates (tail : List Char) : directive? (c :: tail) = separator? (c :: tail) := by
          simp [directive?, colon]
        rw [List.cons_append, separates, separates]
        exact separator?_append feed more

theorem indentedDirective?_append (feed : source.getLast? = some '\n') (more : List Char) :
    indentedDirective? (source ++ more) =
      (indentedDirective? source).map (Except.map (followedBy more)) := by
  have feed_body := getLast?_dropWhile isIndent rfl feed
  simp only [indentedDirective?, takeWhile_append_of_feed isIndent rfl feed,
    dropWhile_append_of_feed isIndent rfl feed, directive?_append feed_body,
    Option.map_map]
  congr 1
  funext found
  simp only [Function.comp_apply]
  split <;> rfl

/-- What is closed before the end of a text is closed there if more follows. -/
theorem splitClosing_append {close : Char} {parts : List Char × List Char}
    (found : splitClosing close source = some parts) (behind_ne : parts.2 ≠ [])
    (more : List Char) :
    splitClosing close (source ++ more) = some (parts.1, parts.2 ++ more) := by
  fun_induction splitClosing close source generalizing parts with
  | case1 => contradiction
  | case2 =>
      cases found
      contradiction
  | case3 => contradiction
  | case4 rest ih =>
      obtain ⟨inner, inner_eq, rfl⟩ := Option.map_eq_some_iff.mp found
      simp [splitClosing, ih inner_eq behind_ne, consFront]
  | case5 d rest d_ne =>
      cases found
      simp [splitClosing, d_ne]
  | case6 c d rest c_ne ih =>
      obtain ⟨inner, inner_eq, rfl⟩ := Option.map_eq_some_iff.mp found
      have inner_append := ih inner_eq behind_ne
      rw [List.cons_append] at inner_append
      simp [splitClosing, c_ne, inner_append, consFront]

theorem splitComment_append {depth : Nat} {parts : List Char × List Char}
    (found : splitComment depth source = some parts) (more : List Char) :
    splitComment depth (source ++ more) = some (parts.1, parts.2 ++ more) := by
  fun_induction splitComment depth source generalizing parts with
  | case1 => contradiction
  | case2 depth rest ih =>
      obtain ⟨inner, inner_eq, rfl⟩ := Option.map_eq_some_iff.mp found
      simp [splitComment, ih inner_eq, consFront]
  | case3 =>
      cases found
      simp [splitComment]
  | case4 depth rest ih =>
      obtain ⟨inner, inner_eq, rfl⟩ := Option.map_eq_some_iff.mp found
      simp [splitComment, ih inner_eq, consFront]
  | case5 depth c rest not_open not_close not_deep ih =>
      obtain ⟨inner, inner_eq, rfl⟩ := Option.map_eq_some_iff.mp found
      cases rest with
      | nil => contradiction
      | cons d rest =>
          have same_head {e : Char} {tail : List Char} (eq : d :: (rest ++ more) = e :: tail) :
              d :: rest = e :: rest := by
            rw [(List.cons.inj eq).1]
          have inner_append := ih inner_eq
          rw [List.cons_append] at inner_append
          rw [List.cons_append, List.cons_append, splitComment, inner_append]
          · rfl
          · exact fun _ c_eq eq => not_open rest c_eq (same_head eq)
          · exact fun _ depth_eq c_eq eq => not_close rest depth_eq c_eq (same_head eq)
          · exact fun inner _ depth_eq c_eq eq =>
              not_deep inner rest depth_eq c_eq (same_head eq)

theorem splitText_append_of_feed (feed : source.getLast? = some '\n') (more : List Char) :
    splitText (source ++ more) = ((splitText source).1, (splitText source).2 ++ more) := by
  fun_induction splitText source with
  | case1 => contradiction
  | case2 c rest opens =>
      have opens_append := opensToken_append feed more
      rw [opens, List.cons_append] at opens_append
      simp [splitText, opens_append]
  | case3 rest not_opens =>
      have opens_append := opensToken_append feed more
      rw [List.cons_append] at opens_append
      simp [splitText, opens_append, not_opens]
  | case4 c rest not_opens c_ne ih =>
      have opens_append := opensToken_append feed more
      rw [List.cons_append] at opens_append
      have feed_rest := (feed_cons feed).resolve_left fun absurd => c_ne absurd.1
      simp [splitText, opens_append, not_opens, c_ne, ih feed_rest, consFront]

theorem textFrom_append {first : Char} (feed : (first :: rest).getLast? = some '\n')
    (more : List Char) :
    textFrom first (rest ++ more) = (textFrom first rest).followedBy more := by
  unfold textFrom
  split
  · rfl
  · rename_i first_ne
    have feed_rest := (feed_cons feed).resolve_left fun absurd => first_ne absurd.1
    simp only [splitText_append_of_feed feed_rest, followedBy]

theorem closed_append {form : Form} {opener : List Char} {unclosed : ParseCause}
    {parts? parts?' : Option (List Char × List Char)} {lexeme : Lexeme} {more : List Char}
    (split : ∀ parts, parts? = some parts → parts?' = some (parts.1, parts.2 ++ more))
    (found : closed form opener unclosed parts? = .ok lexeme) :
    closed form opener unclosed parts?' = .ok (lexeme.followedBy more) := by
  cases parts? with
  | none => cases found
  | some parts =>
      cases found
      rw [split parts rfl]
      rfl

theorem referenceFrom_append (feed : source.getLast? = some '\n') (more : List Char)
    {lexeme : Lexeme} (found : referenceFrom source = .ok lexeme) :
    referenceFrom (source ++ more) = .ok (lexeme.followedBy more) := by
  let isInside (c : Char) : Bool := c != ')' && isInLine c
  unfold referenceFrom at found ⊢
  dsimp only at found ⊢
  rw [takeWhile_append_of_feed isInside rfl feed, dropWhile_append_of_feed isInside rfl feed]
  split at found
  · rename_i behind behind_eq
    rw [behind_eq]
    dsimp only [List.cons_append]
    split at found
    · rename_i named
      cases found
      exact if_pos named
    · cases found
  · cases found

/-- A literal that is closed is not closed by the last line feed of a text. -/
theorem splitClosing_append_of_feed {close first : Char} (close_ne : close ≠ '\n')
    (first_ne : first ≠ '\n') (feed : (first :: source).getLast? = some '\n') (more : List Char)
    (parts : List Char × List Char) (found : splitClosing close source = some parts) :
    splitClosing close (source ++ more) = some (parts.1, parts.2 ++ more) := by
  refine splitClosing_append found ?_ more
  intro none_left
  have feed_source := (feed_cons feed).resolve_left fun absurd => first_ne absurd.1
  have last := getLast?_of_splitClosing found
  rw [← append_of_splitClosing found, none_left, List.append_nil, last] at feed_source
  exact close_ne (Option.some.inj feed_source)

/-- A token inside a line that ends with its text is the same if more follows. -/
theorem inLine_append {first : Char} (feed : (first :: rest).getLast? = some '\n')
    (more : List Char) {lexeme : Lexeme} (found : inLine first rest = .ok lexeme) :
    inLine first (rest ++ more) = .ok (lexeme.followedBy more) := by
  unfold inLine at found
  split at found
  · exact closed_append (splitClosing_append_of_feed (by decide) (by decide) feed more) found
  · exact closed_append (splitClosing_append_of_feed (by decide) (by decide) feed more) found
  · exact closed_append (splitClosing_append_of_feed (by decide) (by decide) feed more) found
  · have feed_rest := (feed_cons feed).resolve_left (by simp)
    have taken := takeWhile_append_of_feed isInLine rfl feed_rest more
    have dropped := dropWhile_append_of_feed isInLine rfl feed_rest more
    cases found
    rw [List.cons_append] at taken dropped
    simp only [List.cons_append, inLine, followedBy, taken, dropped]
  · exact closed_append (fun parts split => splitComment_append split more) found
  · have feed_behind := (feed_cons feed).resolve_left (by simp)
    exact referenceFrom_append ((feed_cons feed_behind).resolve_left (by simp)) more found
  · cases found
    rw [← textFrom_append feed]
    rcases feed_cons feed with ⟨rfl, rfl⟩ | feed_rest
    · simp [inLine]
    · cases rest with
      | nil => contradiction
      | cons d rest =>
        unfold inLine
        split <;> simp_all

/-- What is found at the beginning of a text that ends a line is found there if more follows. -/
theorem scan?_append {lineStart : Bool} {lexeme : Lexeme} (feed : source.getLast? = some '\n')
    (scanned : scan? lineStart source = some (.ok lexeme)) (more : List Char) :
    scan? lineStart (source ++ more) = some (.ok (lexeme.followedBy more)) := by
  cases source with
  | nil => contradiction
  | cons first rest =>
      cases lineStart with
      | false =>
          have found : inLine first rest = .ok lexeme := Option.some.inj scanned
          exact congrArg some (inLine_append feed more found)
      | true =>
          have directive_append := indentedDirective?_append feed more
          simp only [List.cons_append, scan?, if_true] at scanned directive_append ⊢
          rw [directive_append]
          cases directive_eq : indentedDirective? (first :: rest) with
          | none =>
              rw [directive_eq] at scanned
              exact congrArg some (inLine_append feed more (Option.some.inj scanned))
          | some found =>
              rw [directive_eq] at scanned
              obtain rfl := Option.some.inj scanned
              rfl

end Lexeme

namespace Lexing

variable {start : Position} {lineStart : Bool} {source : List Char}

/-- A text that ends a line and has no error is lexed as if what follows it were not there, and what
follows it is lexed from a line start. -/
theorem run_append (feed : source.getLast? = some '\n')
    (whole : (run start lineStart source).failure = none) (more : List Char) :
    run start lineStart (source ++ more) =
      { tokens := (run start lineStart source).tokens ++
          (run (start.advance source) true more).tokens
        failure := (run (start.advance source) true more).failure } := by
  induction start, lineStart, source using run_induction with
  | finished start lineStart source scanned =>
      obtain rfl := Lexeme.eq_nil_of_scan? scanned
      contradiction
  | failed start lineStart source cause scanned =>
      rw [run_of_failed start scanned] at whole
      contradiction
  | token start lineStart source lexeme scanned ih =>
      obtain ⟨append_eq, -⟩ := Lexeme.append_of_scan? scanned
      rw [run_of_lexeme start scanned] at whole ⊢
      rw [run_of_lexeme start (Lexeme.scan?_append feed scanned more)]
      cases rest_eq : lexeme.rest with
      | nil =>
          -- The last token of the text ends with the line feed, so a line begins behind it.
          rw [rest_eq, List.append_nil] at append_eq
          have fresh := (Lexeme.lineWise_of_scan? scanned).last (append_eq ▸ feed)
          have finished : run (start.advance lexeme.text) lexeme.freshLine [] =
              { tokens := [], failure := none } := run_of_finished _ rfl
          rw [finished, ← append_eq]
          simp [Lexeme.followedBy, Lexeme.tokenFrom, cons, rest_eq, fresh]
      | cons c rest =>
          have rest_ne : lexeme.rest ≠ [] := by simp [rest_eq]
          have feed_rest : lexeme.rest.getLast? = some '\n' := by
            rwa [← append_eq, List.getLast?_append_of_ne_nil _ rest_ne] at feed
          have behind := ih feed_rest whole
          rw [← append_eq, Position.advance_append, ← rest_eq]
          simp only [Lexeme.followedBy, cons, behind, List.cons_append]
          rfl

end Lexing

/-- The point that `position` becomes if `front`, which ends a line, is put before its file. -/
def Position.below (front : String) (position : Position) : Position :=
  { position with
    line := position.line + UInt32.ofNat (front.toList.count '\n')
    offset := position.offset + front.utf8ByteSize }

/-- The class of a token below `front`; commands know where their arguments begin. -/
def TokenKind.below (front : String) : TokenKind → TokenKind
  | command written =>
      command { written with argumentsStart := written.argumentsStart.below front }
  | kind => kind

/-- The token below `front`. -/
def Token.below (front : String) (token : Token) : Token where
  kind := token.kind.below front
  text := token.text
  start := token.start.below front
  stop := token.stop.below front

/-- The error below `front`. -/
def ParseError.below (front : String) (failure : ParseError) : ParseError :=
  { failure with position := failure.position.below front }

namespace Position

@[simp]
theorem below_empty (position : Position) : position.below "" = position := by
  have zero_eq : UInt32.ofNat 0 = 0 := rfl
  simp [below, zero_eq]

theorem below_step (front : String) (position : Position) (c : Char) :
    (position.below front).step c = (position.step c).below front := by
  unfold step below
  split
  · simp only [mk.injEq, true_and]
    exact ⟨by ac_rfl, by omega⟩
  · simp only [mk.injEq, true_and]
    omega

theorem below_advance (front : String) (position : Position) (text : List Char) :
    (position.below front).advance text = (position.advance text).below front := by
  induction text generalizing position with
  | nil => rfl
  | cons c text ih => rw [advance_cons, advance_cons, below_step, ih]

theorem line_advance (position : Position) (text : List Char) :
    (position.advance text).line = position.line + UInt32.ofNat (text.count '\n') := by
  induction text generalizing position with
  | nil => simp
  | cons c text ih =>
      rw [advance_cons, ih, List.count_cons, UInt32.ofNat_add]
      by_cases feed : c = '\n'
      · simp only [step, feed, if_true, beq_self_eq_true]
        have one_eq : UInt32.ofNat 1 = 1 := rfl
        rw [one_eq]
        ac_rfl
      · have zero_eq : UInt32.ofNat 0 = 0 := rfl
        simp [step, feed, zero_eq]

/-- Behind a text that ends a line, a file begins as it does alone, only further down. -/
theorem advance_startOf (file : SourceFile) {front : String}
    (feed : front.toList.getLast? = some '\n') :
    (startOf file).advance front.toList = (startOf file).below front := by
  have size_eq : front.utf8ByteSize = String.utf8Len front.toList := by
    rw [← String.utf8ByteSize_ofList, String.ofList_toList]
  have file_eq := advance_file (startOf file) front.toList
  have line_eq := line_advance (startOf file) front.toList
  have column_eq := column_advance_of_feed (startOf file) feed
  have offset_eq := offset_advance (startOf file) front.toList
  rw [← size_eq] at offset_eq
  generalize (startOf file).advance front.toList = place at *
  cases place
  simp_all [below, startOf]

end Position

namespace Lexing

theorem tokenFrom_below (front : String) (start : Position) (lexeme : Lexeme) :
    lexeme.tokenFrom (start.below front) = (lexeme.tokenFrom start).below front := by
  unfold Lexeme.tokenFrom Token.below
  rw [Position.below_advance]
  cases lexeme.form with
  | command kind lead arguments =>
      simp only [Form.kindFrom, TokenKind.below, Position.below_advance]
  | _ => rfl

/-- Further down, the same text has the same tokens. -/
theorem run_below (front : String) (start : Position) (lineStart : Bool) (source : List Char) :
    run (start.below front) lineStart source =
      { tokens := (run start lineStart source).tokens.map (Token.below front)
        failure := (run start lineStart source).failure.map (ParseError.below front) } := by
  induction start, lineStart, source using run_induction with
  | finished start lineStart source scanned =>
      rw [run_of_finished _ scanned, run_of_finished _ scanned]
      rfl
  | failed start lineStart source cause scanned =>
      rw [run_of_failed _ scanned, run_of_failed _ scanned]
      rfl
  | token start lineStart source lexeme scanned ih =>
      rw [run_of_lexeme _ scanned, run_of_lexeme _ scanned, Position.below_advance, ih,
        tokenFrom_below]
      rfl

/-- The text of a lexing ends a line outside quotes and comments, or is empty. -/
def EndsLine (lexing : Lexing) : Prop :=
  ∀ last ∈ lexing.tokens.getLast?, last.kind = .text ∧ last.text.toList.getLast? = some '\n'

theorem EndsLine.feed {file : SourceFile} {front : String} (ends : (ofText file front).EndsLine)
    (whole : (ofText file front).failure = none) :
    front = "" ∨ front.toList.getLast? = some '\n' := by
  have text_eq := (text_append (Position.startOf file) true front.toList).2 whole
  change Token.textOf (ofText file front).tokens = front.toList at text_eq
  rcases List.eq_nil_or_concat (ofText file front).tokens with none_eq | ⟨earlier, last, tokens_eq⟩
  · rw [none_eq, Token.textOf_nil] at text_eq
    exact .inl (String.toList_eq_nil_iff.mp text_eq.symm)
  · rw [tokens_eq, List.concat_eq_append] at text_eq
    obtain ⟨-, feed⟩ := ends last (by simp [tokens_eq])
    rw [← text_eq, Token.textOf_append, Token.textOf_cons, Token.textOf_nil, List.append_nil,
      List.getLast?_append, feed]
    exact .inr rfl

/-- What follows a text that ends a line is lexed where that text ends. -/
theorem run_behind {file : SourceFile} {front : String} {tokens : List Token}
    (ends : (ofText file front).EndsLine) (tokens_eq : tokenize file front = .ok tokens)
    (more : List Char) :
    run (Position.startOf file) true (front.toList ++ more) =
      { tokens := tokens ++ (run ((Position.startOf file).advance front.toList) true more).tokens
        failure := (run ((Position.startOf file).advance front.toList) true more).failure } := by
  have alone := ofText_of_tokenize tokens_eq
  have whole : (ofText file front).failure = none := by rw [alone]
  rcases ends.feed whole with rfl | feed
  · have nothing : (ofText file "").tokens = [] := congrArg Lexing.tokens (run_of_finished _ rfl)
    rw [alone] at nothing
    rw [show tokens = [] from nothing]
    rfl
  · rw [run_append feed whole]
    rw [ofText] at alone
    rw [alone]

/-- A text that ends a line outside quotes and comments, put before another, leaves the tokens and
the error of the other as they are and moves them down by its lines and bytes. -/
theorem ofText_append {file : SourceFile} {front : String}
    (whole : (ofText file front).failure = none) (ends : (ofText file front).EndsLine)
    (back : String) :
    ofText file (front ++ back) =
      { tokens := (ofText file front).tokens ++
          (ofText file back).tokens.map (Token.below front)
        failure := (ofText file back).failure.map (ParseError.below front) } := by
  rcases ends.feed whole with rfl | feed
  · have moved := run_below "" (Position.startOf file) true back.toList
    rw [Position.below_empty] at moved
    have nothing : (ofText file "").tokens = [] := congrArg tokens (run_of_finished _ rfl)
    rw [String.empty_append, nothing, List.nil_append]
    exact moved
  · have joined := run_append feed whole back.toList
    rw [Position.advance_startOf file feed, run_below] at joined
    rw [ofText, String.toList_append]
    exact joined

theorem ofText_append_of_comment :
    (ofText .script "/*\n*/é\n").failure = none ∧ (ofText .script "/*\n*/é\n").EndsLine ∧
      ofText .script ("/*\n*/é\n" ++ "GO 0") =
        { tokens := (ofText .script "/*\n*/é\n").tokens
          failure := some
            { cause := .invalidRepeatCount "0"
              position := { file := .script, line := 3, column := 1, offset := 8 } } } := by
  have whole : (ofText .script "/*\n*/é\n").failure = none := by decide +kernel
  have ends : (ofText .script "/*\n*/é\n").EndsLine := by
    unfold EndsLine
    decide +kernel
  have back_eq : ofText .script "GO 0" =
      { tokens := []
        failure := some { cause := .invalidRepeatCount "0", position := .startOf .script } } := by
    decide +kernel
  refine ⟨whole, ends, ?_⟩
  rw [ofText_append whole ends "GO 0", back_eq]
  decide +kernel

end Lexing
end SqlScript
