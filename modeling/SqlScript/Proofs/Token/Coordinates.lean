import SqlScript.Proofs.Token.Stream

/-!
# Coordinates of tokens

Positions count lines and columns with thirty-two bits.  In a text that is shorter than that no
count wraps around, so positions can be compared with coordinates that have no bound.  The tokens
of such a text lie end to end.
-/

namespace SqlScript

/-- A point in a text, counted without a bound. -/
structure Coordinates where
  line : Nat
  column : Nat
  offset : Nat

namespace Coordinates

/-- The point after one character. -/
def step (point : Coordinates) (c : Char) : Coordinates :=
  if c = '\n' then
    { line := point.line + 1, column := 1, offset := point.offset + c.utf8Size }
  else
    { line := point.line, column := point.column + 1, offset := point.offset + c.utf8Size }

/-- The point after a text. -/
def advance (point : Coordinates) (text : List Char) : Coordinates :=
  text.foldl step point

end Coordinates

namespace Position

/-- The coordinates of a position. -/
def coordinates (position : Position) : Coordinates where
  line := position.line.toNat
  column := position.column.toNat
  offset := position.offset

/-- No count wraps around within the next `count` characters. -/
def HasRoom (position : Position) (count : Nat) : Prop :=
  position.line.toNat + count < UInt32.size ∧ position.column.toNat + count < UInt32.size

theorem toNat_succ (count : UInt32) (room : count.toNat + 1 < UInt32.size) :
    (count + 1).toNat = count.toNat + 1 := by
  rw [UInt32.toNat_add]
  exact Nat.mod_eq_of_lt room

theorem hasRoom_startOf (file : SourceFile) {count : Nat} (bounded : count < UInt32.size - 1) :
    (startOf file).HasRoom count := by
  have room : 1 + count < UInt32.size := by
    rw [UInt32.size] at *
    omega
  exact ⟨room, room⟩

theorem coordinates_step {position : Position} {count : Nat}
    (room : position.HasRoom (count + 1)) (c : Char) :
    (position.step c).coordinates = position.coordinates.step c ∧
      (position.step c).HasRoom count := by
  obtain ⟨line_room, column_room⟩ := room
  have line_eq := toNat_succ position.line (by omega)
  have column_eq := toNat_succ position.column (by omega)
  by_cases feed : c = '\n'
  · have one_eq : (1 : UInt32).toNat = 1 := rfl
    constructor
    · simp [coordinates, step, Coordinates.step, feed, line_eq]
    · simp only [HasRoom, step, feed, if_true, line_eq, one_eq]
      omega
  · constructor
    · simp [coordinates, step, Coordinates.step, feed, column_eq]
    · simp only [HasRoom, step, feed, if_false, column_eq]
      omega

/-- Where there is room, reading a text moves a position as it moves coordinates. -/
theorem coordinates_advance {position : Position} {text : List Char} {count : Nat}
    (room : position.HasRoom (text.length + count)) :
    (position.advance text).coordinates = position.coordinates.advance text ∧
      (position.advance text).HasRoom count := by
  induction text generalizing position with
  | nil => exact ⟨rfl, by simpa using room⟩
  | cons c text ih =>
      have room_step : position.HasRoom (text.length + count + 1) := by
        rw [List.length_cons] at room
        rwa [Nat.add_right_comm] at room
      obtain ⟨step_eq, room_behind⟩ := coordinates_step room_step c
      obtain ⟨advance_eq, room_left⟩ := ih room_behind
      refine ⟨?_, room_left⟩
      rw [advance_cons, advance_eq, step_eq]
      rfl

end Position

/-- A token has text, and its positions are those of its text in the file. -/
structure Token.Exact (file : SourceFile) (token : Token) : Prop where
  text_ne : token.text ≠ ""
  start_file : token.start.file = file
  stop_file : token.stop.file = file
  stop_eq : token.stop.coordinates = token.start.coordinates.advance token.text.toList
  arguments : ∀ command, token.kind = .command command →
    command.argumentsStart.file = file ∧ ∃ lead, lead <+: token.text.toList ∧
      command.argumentsStart.coordinates = token.start.coordinates.advance lead

/-- Exact tokens lie end to end from `start` to `stop`. -/
inductive Token.Chain (file : SourceFile) :
    (start : Position) → List Token → (stop : Position) → Prop
  | nil {position : Position} : Chain file position [] position
  | cons {token : Token} {tokens : List Token} {stop : Position} :
      token.Exact file → Chain file token.stop tokens stop →
        Chain file token.start (token :: tokens) stop

theorem Lexeme.lead_prefix_of_scan? {lineStart : Bool} {source lead : List Char} {lexeme : Lexeme}
    {kind : CommandKind} {arguments : List Char}
    (scanned : scan? lineStart source = some (.ok lexeme))
    (form_eq : lexeme.form = .command kind lead arguments) : lead <+: lexeme.text := by
  obtain ⟨blanks, text_eq⟩ := arguments_of_scan? scanned form_eq
  rw [text_eq]
  exact List.prefix_append _ _

theorem Lexeme.exact_tokenFrom {lineStart : Bool} {source : List Char} {lexeme : Lexeme}
    {start : Position} {count : Nat} (scanned : scan? lineStart source = some (.ok lexeme))
    (room : start.HasRoom (lexeme.text.length + count)) :
    (lexeme.tokenFrom start).Exact start.file where
  text_ne empty := by
    have text_eq := congrArg String.toList empty
    rw [text_tokenFrom] at text_eq
    exact (append_of_scan? scanned).2 text_eq
  start_file := rfl
  stop_file := Position.advance_file start lexeme.text
  stop_eq := by
    rw [text_tokenFrom]
    exact (Position.coordinates_advance room).1
  arguments := by
    intro command kind_eq
    cases form_eq : lexeme.form with
    | command kind lead arguments =>
        rw [tokenFrom, form_eq] at kind_eq
        obtain rfl := TokenKind.command.inj kind_eq
        obtain ⟨tail, text_eq⟩ := lead_prefix_of_scan? scanned form_eq
        refine ⟨Position.advance_file start lead, lead, ⟨tail, by rw [text_tokenFrom, text_eq]⟩, ?_⟩
        rw [← text_eq, List.length_append, Nat.add_assoc] at room
        exact (Position.coordinates_advance room).1
    | _ => simp [tokenFrom, form_eq, Form.kindFrom] at kind_eq

namespace Lexing

variable {source : List Char} {start : Position}

theorem items_eq (start : Position) (lineStart : Bool) (source : List Char) :
    ({ position := start, lineStart, rest := source : Lexer }).items =
      (run start lineStart source).tokens.map .ok ++
        (run start lineStart source).failure.toList.map .error := by
  induction start, lineStart, source using run_induction with
  | finished start lineStart source scanned =>
      rw [run_of_finished start scanned]
      exact Lexer.items_of_none (by simp [Lexer.next?, scanned])
  | failed start lineStart source cause scanned =>
      rw [run_of_failed start scanned,
        Lexer.items_of_some (by simp [Lexer.next?, scanned]; exact ⟨rfl, rfl⟩)]
      rw [Lexer.items_failed rfl]
      rfl
  | token start lineStart source lexeme scanned ih =>
      rw [run_of_lexeme start scanned,
        Lexer.items_of_some (by simp [Lexer.next?, scanned]; exact ⟨rfl, rfl⟩), ih]
      rfl

theorem text_append (start : Position) (lineStart : Bool) (source : List Char) :
    (run start lineStart source).text <+: source ∧
      ((run start lineStart source).failure = none →
        (run start lineStart source).text = source) := by
  induction start, lineStart, source using run_induction with
  | finished start lineStart source scanned =>
      rw [run_of_finished start scanned, Lexeme.eq_nil_of_scan? scanned]
      exact ⟨List.prefix_refl _, fun _ => rfl⟩
  | failed start lineStart source cause scanned =>
      rw [run_of_failed start scanned]
      exact ⟨List.prefix_append [] source, fun no_failure => by contradiction⟩
  | token start lineStart source lexeme scanned ih =>
      rw [run_of_lexeme start scanned, text_cons, Lexeme.text_tokenFrom,
        ← (Lexeme.append_of_scan? scanned).1]
      obtain ⟨begins, whole⟩ := ih
      refine ⟨(List.prefix_append_right_inj _).mpr begins, fun no_failure => ?_⟩
      rw [whole no_failure]

theorem chain_of_run (lineStart : Bool) (room : start.HasRoom source.length) :
    ∃ stop, Token.Chain start.file start (run start lineStart source).tokens stop ∧
      ∀ failure, (run start lineStart source).failure = some failure →
        failure.position = stop := by
  induction start, lineStart, source using run_induction with
  | finished start lineStart source scanned =>
      rw [run_of_finished start scanned]
      exact ⟨start, .nil, by simp⟩
  | failed start lineStart source cause scanned =>
      rw [run_of_failed start scanned]
      refine ⟨start, .nil, fun failure failure_eq => ?_⟩
      obtain rfl := Option.some.inj failure_eq
      rfl
  | token start lineStart source lexeme scanned ih =>
      rw [run_of_lexeme start scanned]
      rw [← (Lexeme.append_of_scan? scanned).1, List.length_append] at room
      obtain ⟨stop, chain, failed_at⟩ := ih (Position.coordinates_advance room).2
      rw [Position.advance_file] at chain
      exact ⟨stop, .cons (Lexeme.exact_tokenFrom scanned room) chain, failed_at⟩

/-- A lexer yields exact tokens that lie end to end from the first point of the file and spell the
text, or spell its beginning up to one last error, which is placed where the tokens end. -/
theorem items_chain (file : SourceFile) {text : String} (bounded : text.length < UInt32.size - 1) :
    ∃ (tokens : List Token) (failure : Option ParseError) (stop : Position),
      (Lexer.ofText file text).items = tokens.map .ok ++ failure.toList.map .error ∧
        Token.Chain file (Position.startOf file) tokens stop ∧
          Token.textOf tokens <+: text.toList ∧
            match failure with
            | none => Token.textOf tokens = text.toList
            | some failure => failure.position = stop := by
  have room : (Position.startOf file).HasRoom text.toList.length :=
    Position.hasRoom_startOf file (by rwa [String.length_toList])
  obtain ⟨stop, chain, failed_at⟩ := chain_of_run true room
  obtain ⟨begins, whole⟩ := text_append (Position.startOf file) true text.toList
  refine ⟨_, _, stop, items_eq (Position.startOf file) true text.toList, chain, begins, ?_⟩
  cases failure_eq : (run (Position.startOf file) true text.toList).failure with
  | none => exact whole failure_eq
  | some failure => exact failed_at failure failure_eq

theorem items_chain_of_two_lines :
    "é\n\x27".length < UInt32.size - 1 ∧
      ∃ (tokens : List Token) (failure : Option ParseError) (stop : Position),
        (Lexer.ofText .script "é\n\x27").items = tokens.map .ok ++ failure.toList.map .error ∧
          Token.Chain .script (Position.startOf .script) tokens stop ∧
            Token.textOf tokens <+: "é\n\x27".toList ∧
              match failure with
              | none => Token.textOf tokens = "é\n\x27".toList
              | some failure => failure.position = stop :=
  ⟨by decide, items_chain .script (by decide)⟩

end Lexing
end SqlScript
