import Mathlib.Data.String.Basic
import SqlScript.Proofs.Token.Coordinates
import SqlScript.Proofs.Token.Directives

/-!
# Resuming at a token

Lexing can be taken up again where a token begins.  Beyond the text behind the place, all that has
to be known there is whether a line begins, and that is read off the column.  The indentation of a
separator or a command is a token of its own; behind it the line still begins although its first
column has passed, so the separator or the command is missed.  From every other token on the tokens
are the same.
-/

namespace SqlScript

theorem Coordinates.column_advance_pos {point : Coordinates} (pos : 0 < point.column)
    (text : List Char) : 0 < (point.advance text).column := by
  induction text generalizing point with
  | nil => exact pos
  | cons c text induction =>
      have next_pos : 0 < (point.step c).column := by
        unfold step
        split
        · exact Nat.one_pos
        · exact Nat.succ_pos _
      exact induction next_pos

namespace Position

theorem offset_advance (position : Position) (text : List Char) :
    (position.advance text).offset = position.offset + String.utf8Len text := by
  induction text generalizing position with
  | nil => rfl
  | cons c text induction =>
      rw [advance_cons, induction, step_offset, String.utf8Len_cons]
      omega

theorem column_advance_of_feed (position : Position) {text : List Char}
    (last : text.getLast? = some '\n') : (position.advance text).column = 1 := by
  obtain ⟨init, rfl⟩ := List.getLast?_eq_some_iff.mp last
  rw [advance_append]
  rfl

/-- Where no count wraps around, the first column is reached by a line feed only. -/
theorem feed_of_column_advance {position : Position} {text : List Char}
    (room : position.HasRoom text.length) (pos : 0 < position.column.toNat)
    (column_eq : (position.advance text).column = 1) :
    text = [] ∨ text.getLast? = some '\n' := by
  rcases List.eq_nil_or_concat text with rfl | ⟨init, c, rfl⟩
  · exact .inl rfl
  rw [List.concat_eq_append] at room column_eq ⊢
  rw [List.length_append] at room
  obtain ⟨coordinates_eq, -, column_room⟩ := coordinates_advance room
  refine .inr ?_
  by_contra other
  have c_ne : c ≠ '\n' := fun feed => other (by simp [feed])
  have before_pos : 0 < (position.advance init).column.toNat := by
    have coordinates_pos : 0 < (position.coordinates.advance init).column :=
      Coordinates.column_advance_pos pos init
    rwa [← coordinates_eq] at coordinates_pos
  have next_eq := toNat_succ (position.advance init).column column_room
  rw [advance_append, advance_cons, advance_nil, step, if_neg c_ne] at column_eq
  have one_eq : ((position.advance init).column + 1).toNat = 1 := congrArg UInt32.toNat column_eq
  omega

end Position

namespace Lexing

open Lexeme (directive? scan?)

variable {file : SourceFile} {start : Position} {lineStart : Bool} {source : List Char}
  {earlier later : List Token} {token : Token}

theorem dropBytes_utf8Len (before behind : List Char) :
    dropBytes (String.utf8Len before) (before ++ behind) = behind := by
  induction before with
  | nil => exact dropBytes.eq_1 behind
  | cons c before induction =>
      have size_pos := c.utf8Size_pos
      obtain ⟨count, count_eq⟩ := Nat.exists_eq_succ_of_ne_zero
        (n := String.utf8Len before + c.utf8Size) (by omega)
      rw [String.utf8Len_cons, count_eq, List.cons_append, dropBytes, ← Nat.succ_eq_add_one,
        ← count_eq, Nat.add_sub_cancel, induction]

/-- Taken up again behind `before`, lexing differs from the first time at most in whether a line
begins there. -/
theorem resume_of_split {text : String} {before behind : List Char}
    (split : text.toList = before ++ behind) :
    let here := (Position.startOf file).advance before
    resume text here = run here (here.column == 1) behind := by
  intro here
  have offset_eq : here.offset = String.utf8Len before := by
    rw [Position.offset_advance]
    exact Nat.zero_add _
  have size_eq : text.utf8ByteSize = String.utf8Len before + String.utf8Len behind := by
    rw [← String.utf8Len_append, ← split, ← String.utf8ByteSize_ofList, String.ofList_toList]
  have within : min here.offset text.utf8ByteSize = here.offset := by
    rw [size_eq, offset_eq]
    exact Nat.min_eq_left (Nat.le_add_right _ _)
  rw [resume, within, offset_eq, split, dropBytes_utf8Len]
  rw [← offset_eq]

/-- Behind a token a line begins with a line feed, or with a separator or a command that was
indented. -/
theorem begins_of_freshLine {lexeme : Lexeme}
    (scanned : scan? lineStart source = some (.ok lexeme)) (fresh : lexeme.freshLine = true) :
    lexeme.text.getLast? = some '\n' ∨ ∃ found, directive? lexeme.rest = some found := by
  generalize found_eq : Except.ok lexeme = found at scanned
  cases Lexeme.scans_of_scan? scanned with
  | directive directive_eq =>
      have line_wise : lexeme.LineWise false :=
        Lexeme.lineWise_of_directive? (found_eq ▸ directive_eq)
      exact .inl ((line_wise.fresh fresh).resolve_right (by simp))
  | indent _ _ directive_eq =>
      cases found_eq
      exact .inr ⟨_, directive_eq⟩
  | inLine =>
      have line_wise : lexeme.LineWise false := Lexeme.lineWise_of_inLine found_eq.symm
      exact .inl ((line_wise.fresh fresh).resolve_right (by simp))

/-- What the lexer knows behind the text `before`: whether a line begins there. -/
structure Knows (lineStart : Bool) (before : List Char) (fresh : Bool) (behind : List Char) :
    Prop where
  begins : before = [] ∧ lineStart = true ∨ before.getLast? = some '\n' → fresh = true
  fresh : fresh = true → (before = [] ∧ lineStart = true ∨ before.getLast? = some '\n') ∨
    ∃ found, directive? behind = some found

theorem Knows.of_nil (lineStart : Bool) (source : List Char) :
    Knows lineStart [] lineStart source where
  begins := by simp
  fresh is_start := .inl (.inl ⟨rfl, is_start⟩)

theorem Knows.of_lexeme {lexeme : Lexeme} {before behind : List Char} {fresh : Bool}
    (scanned : scan? lineStart source = some (.ok lexeme))
    (rest_eq : lexeme.rest = before ++ behind)
    (knows : Knows lexeme.freshLine before fresh behind) :
    Knows lineStart (lexeme.text ++ before) fresh behind := by
  have text_ne := (Lexeme.append_of_scan? scanned).2
  have line_wise := Lexeme.lineWise_of_scan? scanned
  refine ⟨fun begins => knows.begins ?_, fun is_fresh => ?_⟩
  · have last := begins.resolve_left fun ⟨empty, _⟩ =>
      text_ne (List.append_eq_nil_iff.mp empty).1
    cases before with
    | nil => exact .inl ⟨rfl, line_wise.last (by simpa using last)⟩
    | cons c before => exact .inr (by simpa [List.getLast?_append] using last)
  · rcases knows.fresh is_fresh with (⟨rfl, lexeme_fresh⟩ | last) | found
    · refine (begins_of_freshLine scanned lexeme_fresh).imp
        (fun last => .inr (by simpa using last)) ?_
      rw [rest_eq]
      exact id
    · exact .inl (.inr (by simp [List.getLast?_append, last]))
    · exact .inr found

/-- A run can be cut before each of its tokens. -/
theorem run_of_split (tokens_eq : (run start lineStart source).tokens = earlier ++ token :: later) :
    ∃ fresh behind, source = Token.textOf earlier ++ behind ∧
      Knows lineStart (Token.textOf earlier) fresh behind ∧
        run (start.advance (Token.textOf earlier)) fresh behind =
          { tokens := token :: later, failure := (run start lineStart source).failure } := by
  induction earlier generalizing start lineStart source with
  | nil =>
      refine ⟨lineStart, source, rfl, .of_nil lineStart source, ?_⟩
      rw [Token.textOf_nil, Position.advance_nil, ← List.nil_append (token :: later),
        ← tokens_eq]
  | cons first earlier induction =>
      cases scanned : scan? lineStart source with
      | none =>
          rw [run_of_finished start scanned] at tokens_eq
          contradiction
      | some found =>
          cases found with
          | error cause =>
              rw [run_of_failed start scanned] at tokens_eq
              contradiction
          | ok lexeme =>
              rw [run_of_lexeme start scanned] at tokens_eq ⊢
              obtain ⟨rfl, later_eq⟩ := List.cons.inj tokens_eq
              obtain ⟨fresh, behind, rest_eq, knows, run_eq⟩ := induction later_eq
              rw [Token.textOf_cons, Lexeme.text_tokenFrom, Position.advance_append]
              refine ⟨fresh, behind, ?_, knows.of_lexeme scanned rest_eq, run_eq⟩
              rw [List.append_assoc, ← rest_eq, (Lexeme.append_of_scan? scanned).1]

/-- A run that is not empty begins with the lexeme that a scan finds. -/
theorem scan?_of_run {failure : Option ParseError}
    (run_eq : run start lineStart source = { tokens := token :: later, failure }) :
    ∃ lexeme, scan? lineStart source = some (.ok lexeme) ∧ token = lexeme.tokenFrom start := by
  cases scanned : scan? lineStart source with
  | none =>
      rw [run_of_finished start scanned] at run_eq
      simp at run_eq
  | some found =>
      cases found with
      | error cause =>
          rw [run_of_failed start scanned] at run_eq
          simp at run_eq
      | ok lexeme =>
          rw [run_of_lexeme start scanned] at run_eq
          have tokens_eq := congrArg Lexing.tokens run_eq
          exact ⟨lexeme, rfl, (List.cons.inj tokens_eq).1.symm⟩

theorem isDirective_of_directive? {lexeme : Lexeme}
    (found : directive? source = some (.ok lexeme)) :
    lexeme.form.isDirective = true := by
  cases Lexeme.directive_of_directive? found with
  | separator | command => rfl

/-- Separators and commands apart, the lexer knows at a token what its column tells. -/
theorem Knows.column_eq {before behind : List Char} {fresh : Bool} {lexeme : Lexeme}
    (knows : Knows true before fresh behind) (scanned : scan? fresh behind = some (.ok lexeme))
    (no_directive : lexeme.form.isDirective = false)
    (unwrapped : ((Position.startOf file).advance before).column = 1 →
      before = [] ∨ before.getLast? = some '\n') :
    (((Position.startOf file).advance before).column == 1) = fresh := by
  cases fresh with
  | true =>
      refine beq_iff_eq.mpr ?_
      rcases knows.fresh rfl with (⟨rfl, -⟩ | last) | ⟨found, found_eq⟩
      · rfl
      · exact Position.column_advance_of_feed _ last
      · cases scanned.symm.trans (Lexeme.scan?_of_scans (.directive found_eq))
        rw [isDirective_of_directive? found_eq] at no_directive
        contradiction
  | false =>
      refine beq_eq_false_iff_ne.mpr fun column_eq => ?_
      have begins := knows.begins ((unwrapped column_eq).imp_left fun empty => ⟨empty, rfl⟩)
      contradiction

/-- Taken up again at a token, lexing yields the tokens and the error from there on, unless the
token is a separator or a command behind indentation.  Only where a column count of thirty-two bits
has wrapped around to one is nothing said. -/
theorem resume_eq_iff {text : String}
    (tokens_eq : (ofText file text).tokens = earlier ++ token :: later)
    (unwrapped : text.length < UInt32.size - 1 ∨ token.kind.isDirective = true ∨
      token.start.column ≠ 1) :
    resume text token.start =
        { tokens := token :: later, failure := (ofText file text).failure } ↔
      (token.kind.isDirective = true → token.start.column = 1) := by
  have start_eq := (coordinates_of_emits ⟨earlier, later, tokens_eq, rfl⟩).1
  obtain ⟨fresh, behind, text_eq, knows, run_eq⟩ := run_of_split tokens_eq
  obtain ⟨lexeme, scanned, rfl⟩ := scan?_of_run run_eq
  rw [start_eq] at unwrapped ⊢
  rw [resume_of_split text_eq, ofText, ← run_eq]
  cases directive : (lexeme.tokenFrom
      ((Position.startOf file).advance (Token.textOf earlier))).kind.isDirective with
  | true =>
      obtain ⟨rfl, -⟩ := Lexeme.directive?_of_scan? scanned
        (by simpa [Lexeme.tokenFrom] using directive)
      refine ⟨fun resumed _ => ?_, fun column_eq => by rw [column_eq rfl]; rfl⟩
      by_contra column_ne
      rw [beq_eq_false_iff_ne.mpr column_ne, run_eq] at resumed
      -- Where no line begins, a scan finds neither a separator nor a command.
      obtain ⟨other, scanned_other, same⟩ := scan?_of_run resumed
      rw [same] at directive
      have begins := (Lexeme.directive?_of_scan? scanned_other
        (by simpa [Lexeme.tokenFrom] using directive)).1
      contradiction
  | false =>
      refine ⟨fun _ => by simp, fun _ => ?_⟩
      rw [knows.column_eq scanned (by simpa [Lexeme.tokenFrom] using directive) fun column_eq => ?_]
      rcases unwrapped with bounded | is_directive | column_ne
      · have length_eq := congrArg List.length text_eq
        rw [String.length_toList, List.length_append] at length_eq
        exact Position.feed_of_column_advance
          (Position.hasRoom_startOf file (by omega)) Nat.one_pos column_eq
      · rw [directive] at is_directive
        contradiction
      · exact absurd column_eq column_ne

theorem resume_of_separator :
    let tokens := (ofText .script "a\nGO").tokens
    ∃ first separator, tokens = [first] ++ separator :: [] ∧
      ("a\nGO".length < UInt32.size - 1 ∨ separator.kind.isDirective = true ∨
        separator.start.column ≠ 1) ∧
      resume "a\nGO" separator.start =
        { tokens := [separator], failure := (ofText .script "a\nGO").failure } := by
  intro tokens
  have tokens_eq : (ofText .script "a\nGO").tokens =
      [{ kind := .text, text := "a\n"
         start := ⟨.script, 1, 1, 0⟩, stop := ⟨.script, 2, 1, 2⟩ }] ++
      { kind := .separator 1, text := "GO"
        start := ⟨.script, 2, 1, 2⟩, stop := ⟨.script, 2, 3, 4⟩ } :: [] := by
    decide +kernel
  refine ⟨_, _, tokens_eq, .inl (by decide), ?_⟩
  exact (resume_eq_iff tokens_eq (.inl (by decide))).mpr fun _ => rfl

/-- A separator behind indentation is read as text. -/
theorem resume_ne_of_indented_separator :
    ¬∀ earlier token later,
      (ofText .script "  GO").tokens = earlier ++ token :: later →
        resume "  GO" token.start =
          { tokens := token :: later, failure := (ofText .script "  GO").failure } := by
  intro agrees
  have tokens_eq : (ofText .script "  GO").tokens =
      [{ kind := .text, text := "  "
         start := ⟨.script, 1, 1, 0⟩, stop := ⟨.script, 1, 3, 2⟩ }] ++
      { kind := .separator 1, text := "GO"
        start := ⟨.script, 1, 3, 2⟩, stop := ⟨.script, 1, 5, 4⟩ } :: [] := by
    decide +kernel
  have resumed := agrees _ _ _ tokens_eq
  revert resumed
  decide +kernel

end Lexing
end SqlScript
