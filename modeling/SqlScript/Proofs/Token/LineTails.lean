import SqlScript.Proofs.Token.Stream

/-!
# The rest of a directive's line

Behind a separator or a command there is nothing on its line but spaces and a comment.  The tokens
that follow it are therefore text and comments until one of them ends the line: no reference begins
on the line of a separator.
-/

namespace SqlScript

/-- Up to the end of the line there are only spaces and a comment. -/
inductive LineTrails : List Char → Prop
  | intro {gap behind : List Char} :
      (∀ c ∈ gap, Lexeme.isIndent c = true) → LineEnds behind → LineTrails (gap ++ behind)

theorem LineTrails.of_lineEnds {source : List Char} (ends : LineEnds source) : LineTrails source :=
  have no_gap : ∀ c ∈ [], Lexeme.isIndent c = true := by simp
  .intro no_gap ends

namespace Token

/-- A line feed comes before any token other than text and line comments. -/
inductive LineTail : List Token → Prop
  | nil : LineTail []
  | ends {token : Token} {rest : List Token} :
      token.kind = .text → '\n' ∈ token.text.toList → LineTail (token :: rest)
  | goesOn {token : Token} {rest : List Token} :
      token.kind = .text ∨ token.kind = .lineComment → LineTail rest → LineTail (token :: rest)

/-- Each separator and each command is followed by the rest of its line. -/
def Lined : List Token → Prop
  | [] => True
  | token :: rest => (token.kind.isDirective = true → LineTail rest) ∧ Lined rest

/-- The rest of a line begins with text or a comment. -/
theorem LineTail.kind_of_cons {token : Token} {rest : List Token}
    (tail : LineTail (token :: rest)) : token.kind = .text ∨ token.kind = .lineComment := by
  cases tail with
  | ends is_text => exact .inl is_text
  | goesOn kind_eq => exact kind_eq

end Token

namespace Lexeme

variable {first : Char} {source rest : List Char} {lexeme : Lexeme}

theorem splitText_append_of_indent {gap : List Char} (indent : ∀ c ∈ gap, isIndent c = true)
    (behind : List Char) :
    splitText (gap ++ behind) = (gap ++ (splitText behind).1, (splitText behind).2) := by
  induction gap with
  | nil => rfl
  | cons c gap ih =>
      obtain ⟨here, later⟩ := List.forall_mem_cons.mp indent
      simp only [isIndent, Bool.or_eq_true, beq_iff_eq] at here
      rw [List.cons_append, splitText, ih later]
      rcases here with (rfl | rfl) | rfl <;> rfl

/-- Behind the characters of a line the line ends. -/
theorem lineEnds_of_run {line : List Char} (run : Text.Run isInLine source line rest) :
    LineEnds rest := by
  have boundary := run.boundary
  cases rest with
  | nil => exact .text
  | cons c rest =>
      obtain rfl : c = '\n' := by simpa [isInLine] using boundary c rfl
      exact .line

theorem inLine_of_indent {c : Char} (indent : isIndent c = true) (rest : List Char) :
    inLine c rest = .ok (textFrom c rest) := by
  simp only [isIndent, Bool.or_eq_true, beq_iff_eq] at indent
  rcases indent with (rfl | rfl) | rfl <;> rfl

/-- Spaces at the end of a line are a text that takes in the line feed behind them. -/
theorem textFrom_of_indent {c : Char} {gap behind : List Char}
    (indent : ∀ d ∈ c :: gap, isIndent d = true) (ends : LineEnds behind) :
    '\n' ∈ (textFrom c (gap ++ behind)).text ∨
      (textFrom c (gap ++ behind)).freshLine = false ∧
        LineTrails (textFrom c (gap ++ behind)).rest := by
  obtain ⟨here, later⟩ := List.forall_mem_cons.mp indent
  have c_ne : c ≠ '\n' := fun feed => absurd (feed ▸ here) (by decide)
  have no_feed : gap.getLast? ≠ some '\n' := fun last =>
    absurd (later _ (List.mem_of_getLast? last)) (by decide)
  rw [textFrom, if_neg c_ne, splitText_append_of_indent later]
  cases ends with
  | text => exact .inr ⟨by simpa [splitText] using no_feed, .of_lineEnds .text⟩
  | line => exact .inl (by simp [splitText, opensToken])
  | comment => exact .inr ⟨by simpa [splitText, opensToken] using no_feed, .of_lineEnds .comment⟩

/-- A token on the rest of a line ends the line, or leaves a rest behind it. -/
theorem inLine_of_lineTrails (trails : LineTrails (first :: rest))
    (found : inLine first rest = .ok lexeme) :
    lexeme.form = .text ∧ '\n' ∈ lexeme.text ∨
      (lexeme.form = .text ∨ lexeme.form = .lineComment) ∧ lexeme.freshLine = false ∧
        LineTrails lexeme.rest := by
  generalize source_eq : first :: rest = source at trails
  obtain ⟨indent, ends⟩ := trails
  rename_i gap behind
  cases gap with
  | nil =>
      rw [List.nil_append] at source_eq
      cases ends with
      | text => cases source_eq
      | line =>
          cases source_eq
          cases found
          exact .inl ⟨rfl, by simp [textFrom]⟩
      | comment =>
          cases source_eq
          cases found
          exact .inr ⟨.inr rfl, rfl, .of_lineEnds (lineEnds_of_run (Text.run_takeWhile isInLine _))⟩
  | cons c gap =>
      cases source_eq
      rw [inLine_of_indent (indent first List.mem_cons_self)] at found
      cases found
      have form_eq := form_of_textFrom first (gap ++ behind)
      exact (textFrom_of_indent indent ends).imp (fun feed => ⟨form_eq, feed⟩)
        (fun trails => ⟨.inl form_eq, trails⟩)

/-- Behind a separator or a command there is the rest of its line. -/
theorem lineTrails_of_directive? (found : directive? source = some (.ok lexeme)) :
    lexeme.freshLine = false ∧ LineTrails lexeme.rest := by
  cases directive_of_directive? found with
  | separator line _ append_eq =>
      refine ⟨rfl, ?_⟩
      cases line with
      | uncounted _ gap_indent ends =>
          obtain rfl := @List.append_cancel_left _ [_, _] _ _ append_eq
          exact .intro gap_indent ends
      | counted _ _ _ _ _ pad_indent ends =>
          rw [← List.append_assoc, ← List.cons_append, ← List.cons_append] at append_eq
          obtain rfl := List.append_cancel_left append_eq
          exact .intro pad_indent ends
  | command _ known => exact ⟨rfl, .of_lineEnds (lineEnds_of_run (run_commandLine known))⟩

end Lexeme

namespace Lexing

open Lexeme (scan?)

theorem lineTail_of_run (start : Position) {source : List Char} (trails : LineTrails source) :
    Token.LineTail (run start false source).tokens := by
  generalize lineStart_eq : false = lineStart
  induction start, lineStart, source using run_induction with
  | finished start lineStart source scanned =>
      rw [run_of_finished start scanned]
      exact .nil
  | failed start lineStart source cause scanned =>
      rw [run_of_failed start scanned]
      exact .nil
  | token start lineStart source lexeme scanned ih =>
      rw [run_of_lexeme start scanned]
      subst lineStart_eq
      cases source with
      | nil => contradiction
      | cons first rest =>
          have found : Lexeme.inLine first rest = .ok lexeme := by simpa [scan?] using scanned
          rcases Lexeme.inLine_of_lineTrails trails found with
            ⟨form_eq, feed⟩ | ⟨form_eq, not_fresh, trails_behind⟩
          · exact .ends (by simp [Lexeme.tokenFrom, form_eq, Form.kindFrom]) (by simpa using feed)
          · refine .goesOn ?_ (ih trails_behind not_fresh.symm)
            rcases form_eq with form_eq | form_eq <;>
              simp [Lexeme.tokenFrom, form_eq, Form.kindFrom]

theorem lined_of_run (start : Position) (lineStart : Bool) (source : List Char) :
    Token.Lined (run start lineStart source).tokens := by
  induction start, lineStart, source using run_induction with
  | finished start lineStart source scanned =>
      rw [run_of_finished start scanned]
      trivial
  | failed start lineStart source cause scanned =>
      rw [run_of_failed start scanned]
      trivial
  | token start lineStart source lexeme scanned ih =>
      rw [run_of_lexeme start scanned]
      refine ⟨fun is_directive => ?_, ih⟩
      obtain ⟨-, found⟩ := Lexeme.directive?_of_scan? scanned
        (by simpa [Lexeme.tokenFrom] using is_directive)
      obtain ⟨not_fresh, trails⟩ := Lexeme.lineTrails_of_directive? found
      rw [not_fresh]
      exact lineTail_of_run _ trails

/-- In a text that has no error, each separator and each command is followed by the rest of its
line. -/
theorem lined_of_tokenize {file : SourceFile} {text : String} {tokens : List Token}
    (tokens_eq : tokenize file text = .ok tokens) : Token.Lined tokens := by
  rw [show tokens = (ofText file text).tokens by rw [ofText_of_tokenize tokens_eq]]
  exact lined_of_run _ _ _

end Lexing
end SqlScript
