import SqlScript.Proofs.Token.Forms
import SqlScript.Server.Query

/-!
# Comments in front of a query

What stands in front of the first word of a batch is made of blanks and complete comments.  Comments
are passed over from delimiter to delimiter, which comes to the same as reading them character by
character (`Server.skipBlockComment_eq`).  So blanks and comments are skipped as far as they go, and
nothing is left behind a comment that does not end (`Server.comments_skipped`).
-/

namespace SqlScript
namespace Server

open Lexeme (splitComment NestedComment Between)

section

variable {first second : Char} {text : List Char}

theorem findPair?_here (first second : Char) (rest : List Char) :
    findPair? first second (first :: second :: rest) = some (0, rest) := by
  simp [findPair?]

theorem findPair?_later {c d : Char} (apart : ¬(c = first ∧ d = second)) (rest : List Char) :
    findPair? first second (c :: d :: rest) =
      (findPair? first second (d :: rest)).map fun found => (found.1 + 1, found.2) := by
  rw [findPair?, if_neg (by simpa using apart)]

theorem findPair?_eq_none_iff :
    findPair? first second text = none ↔ ¬[first, second] <:+: text := by
  fun_induction findPair? first second text with
  | case1 => simp
  | case2 c => simp [List.infix_cons_iff]
  | case3 c d rest here =>
      obtain ⟨rfl, rfl⟩ : c = first ∧ d = second := by simpa using here
      simpa using (List.prefix_append [c, d] rest).isInfix
  | case4 c d rest apart ih =>
      have not_here : ¬[first, second] <+: c :: d :: rest := by
        rintro ⟨behind, parts⟩
        simp_all
      rw [Option.map_eq_none_iff, ih, @List.infix_cons_iff _ _ c, or_iff_right not_here]

theorem nearestDelimiter?_eq_none_iff :
    nearestDelimiter? text = none ↔ ¬['*', '/'] <:+: text := by
  rw [← findPair?_eq_none_iff, nearestDelimiter?]
  split
  · simp_all
  · simp_all
  · split <;> simp_all

theorem nearestDelimiter?_of_opening {rest : List Char} (closes : ['*', '/'] <:+: '*' :: rest) :
    nearestDelimiter? ('/' :: '*' :: rest) = some (true, rest) := by
  obtain ⟨closing, closing_eq⟩ : ∃ closing, findPair? '*' '/' ('*' :: rest) = some closing :=
    Option.ne_none_iff_exists'.mp fun none_eq => findPair?_eq_none_iff.mp none_eq closes
  rw [nearestDelimiter?, findPair?_here, findPair?_later (by decide), closing_eq]
  simp

theorem nearestDelimiter?_of_closing (rest : List Char) :
    nearestDelimiter? ('*' :: '/' :: rest) = some (false, rest) := by
  rw [nearestDelimiter?, findPair?_here]
  cases findPair? '/' '*' ('*' :: '/' :: rest) <;> simp

theorem nearestDelimiter?_between (between : Between first second) (rest : List Char) :
    nearestDelimiter? (first :: second :: rest) = nearestDelimiter? (second :: rest) := by
  rw [nearestDelimiter?, nearestDelimiter?, findPair?_later between.not_closes,
    findPair?_later between.not_opens]
  cases findPair? '*' '/' (second :: rest) with
  | none => rfl
  | some closing =>
      cases findPair? '/' '*' (second :: rest) with
      | none => rfl
      | some opening => simp

end

theorem skipBlockComment_of_none {text : List Char} (depth : Nat)
    (found : nearestDelimiter? text = none) : skipBlockComment depth text = [] := by
  rw [skipBlockComment]
  split <;> simp_all

theorem skipBlockComment_of_opening {text behind : List Char} (depth : Nat)
    (found : nearestDelimiter? text = some (true, behind)) :
    skipBlockComment depth text = skipBlockComment (depth + 1) behind := by
  rw [skipBlockComment]
  split <;> simp_all

theorem skipBlockComment_of_closing {text behind : List Char} (depth : Nat)
    (found : nearestDelimiter? text = some (false, behind)) :
    skipBlockComment (depth + 1) text = skipBlockComment depth behind ∧
      skipBlockComment 0 text = behind := by
  constructor
  · rw [skipBlockComment]
    split <;> simp_all
  · rw [skipBlockComment]
    split <;> simp_all

theorem skipBlockComment_of_next {text behind : List Char} (depth : Nat)
    (next : nearestDelimiter? text = nearestDelimiter? behind) :
    skipBlockComment depth text = skipBlockComment depth behind := by
  rcases found : nearestDelimiter? behind with _ | ⟨_ | _, rest⟩
  · rw [skipBlockComment_of_none depth found, skipBlockComment_of_none depth (next.trans found)]
  · cases depth with
    | zero =>
        rw [(skipBlockComment_of_closing 0 found).2,
          (skipBlockComment_of_closing 0 (next.trans found)).2]
    | succ depth =>
        rw [(skipBlockComment_of_closing depth found).1,
          (skipBlockComment_of_closing depth (next.trans found)).1]
  · rw [skipBlockComment_of_opening depth found,
      skipBlockComment_of_opening depth (next.trans found)]

theorem closing_of_splitComment {depth : Nat} {text : List Char} {parts : List Char × List Char}
    (found : splitComment depth text = some parts) : ['*', '/'] <:+: text := by
  fun_induction splitComment depth text generalizing parts with
  | case1 => contradiction
  | case2 depth rest ih =>
      obtain ⟨later, later_eq, -⟩ := Option.map_eq_some_iff.mp found
      exact List.infix_cons (List.infix_cons (ih later_eq))
  | case3 rest => exact (List.prefix_append ['*', '/'] rest).isInfix
  | case4 depth rest => exact (List.prefix_append ['*', '/'] rest).isInfix
  | case5 depth c rest _ _ _ ih =>
      obtain ⟨later, later_eq, -⟩ := Option.map_eq_some_iff.mp found
      exact List.infix_cons (ih later_eq)

/-- The text behind a comment is what is left of it, and nothing if it does not end. -/
def leftBehind (parts? : Option (List Char × List Char)) : List Char :=
  (parts?.map Prod.snd).getD []

theorem leftBehind_map (c : Char) (parts? : Option (List Char × List Char)) :
    leftBehind (parts?.map (Lexeme.consFront c)) = leftBehind parts? := by
  cases parts? <;> rfl

theorem leftBehind_of_no_closing {text : List Char} (depth : Nat)
    (no_closing : ¬['*', '/'] <:+: text) :
    skipBlockComment depth text = leftBehind (splitComment depth text) := by
  have unsplit : splitComment depth text = none :=
    Option.eq_none_iff_forall_ne_some.mpr fun parts found =>
      no_closing (closing_of_splitComment found)
  rw [unsplit, skipBlockComment_of_none depth (nearestDelimiter?_eq_none_iff.mpr no_closing)]
  rfl

/-- A comment ends where it ends for the lexer, and everything is skipped if it does not end. -/
theorem skipBlockComment_eq (depth : Nat) (text : List Char) :
    skipBlockComment depth text = leftBehind (splitComment depth text) := by
  fun_induction splitComment depth text with
  | case1 depth => exact skipBlockComment_of_none depth rfl
  | case2 depth rest ih =>
      by_cases closes : ['*', '/'] <:+: '*' :: rest
      · rw [skipBlockComment_of_opening depth (nearestDelimiter?_of_opening closes), ih]
        cases splitComment (depth + 1) rest <;> rfl
      · have no_closing : ¬['*', '/'] <:+: '/' :: '*' :: rest := by
          rw [List.infix_cons_iff, or_iff_right (by simp)]
          exact closes
        rw [leftBehind_of_no_closing depth no_closing, splitComment]
  | case3 rest => exact (skipBlockComment_of_closing 0 (nearestDelimiter?_of_closing rest)).2
  | case4 depth rest ih =>
      rw [(skipBlockComment_of_closing depth (nearestDelimiter?_of_closing rest)).1, ih]
      cases splitComment depth rest <;> rfl
  | case5 depth c rest not_opens not_last not_closes ih =>
      rw [leftBehind_map, ← ih]
      cases rest with
      | nil => exact skipBlockComment_of_next depth rfl
      | cons d rest =>
          have between : Between c d := by
            refine ⟨?_, ?_⟩
            · rintro ⟨rfl, rfl⟩
              exact not_opens rest rfl rfl
            · rintro ⟨rfl, rfl⟩
              cases depth with
              | zero => exact not_last rest rfl rfl rfl
              | succ depth => exact not_closes depth rest rfl rfl rfl
          exact skipBlockComment_of_next depth (nearestDelimiter?_between between rest)

/-- A blank or a complete comment.  A comment at the end of a line takes the line feed with it. -/
inductive FillerPiece : List Char → Prop
  | blank {c : Char} : Text.isBlank c = true → FillerPiece [c]
  | lineComment {text : List Char} : '\n' ∉ text → FillerPiece ('-' :: '-' :: (text ++ ['\n']))
  | blockComment {comment : List Char} : NestedComment comment → FillerPiece comment

/-- Blanks and complete comments. -/
inductive Filler : List Char → Prop
  | nil : Filler []
  | cons {piece rest : List Char} : FillerPiece piece → Filler rest → Filler (piece ++ rest)

/-- The text begins with a comment that does not end. -/
def Unclosed (text : List Char) : Prop :=
  ['-', '-'] <+: text ∧ '\n' ∉ text ∨ Lexeme.Unfinished text .unterminatedComment

/-- The text is made of blanks and complete comments, as far as they go, and what stands behind
them. -/
structure Cut (text filler behind : List Char) : Prop where
  append_eq : filler ++ behind = text
  filler : Filler filler
  stops : ∀ piece, FillerPiece piece → ¬piece <+: behind

variable {text filler behind rest : List Char}

theorem skipComments_of_trimLeft {other : List Char}
    (same : Text.trimLeft text = Text.trimLeft other) : skipComments text = skipComments other := by
  rw [skipComments, skipComments, same]

theorem skipComments_lineComment (rest : List Char) :
    skipComments ('-' :: '-' :: rest) = skipComments ((rest.dropWhile (· != '\n')).drop 1) := by
  rw [skipComments]
  rfl

theorem skipComments_blockComment (rest : List Char) :
    skipComments ('/' :: '*' :: rest) = skipComments (leftBehind (splitComment 0 rest)) := by
  rw [skipComments, ← skipBlockComment_eq]
  rfl

theorem skipComments_nil : skipComments [] = [] := by
  rw [skipComments]
  rfl

theorem splitComment_of_nestedComment {comment : List Char} (nested : NestedComment comment) :
    ∃ inner, comment = '/' :: '*' :: inner ∧
      ∀ rest, splitComment 0 (inner ++ rest) = some (inner, rest) := by
  obtain ⟨inner, rfl⟩ := nested.opens
  refine ⟨inner, rfl, fun rest => Lexeme.splitComment_of_depths ?_ rest⟩
  simpa [Lexeme.depths, Lexeme.endsAtZero_cons] using nested.closes

theorem run_of_line {line : List Char} (one_line : '\n' ∉ line) (rest : List Char) :
    Text.Run (· != '\n') (line ++ '\n' :: rest) line ('\n' :: rest) where
  append_eq := rfl
  inside c member := bne_iff_ne.mpr fun feed => one_line (feed ▸ member)
  boundary := by simp

namespace FillerPiece

variable {piece : List Char}

theorem ne_nil (is_piece : FillerPiece piece) : piece ≠ [] := by
  cases is_piece with
  | blank => simp
  | lineComment => simp
  | blockComment nested =>
      obtain ⟨inner, rfl, -⟩ := splitComment_of_nestedComment nested
      simp

/-- Of all pieces, at most one begins a text. -/
theorem unique {other rest' : List Char} (is_piece : FillerPiece piece)
    (is_other : FillerPiece other) (same : piece ++ rest = other ++ rest') :
    piece = other ∧ rest = rest' := by
  have dash : Text.isBlank '-' = false := by decide
  have slash : Text.isBlank '/' = false := by decide
  cases is_piece with
  | blank blank =>
      cases is_other with
      | blank => simpa using same
      | lineComment => simp_all
      | blockComment nested =>
          obtain ⟨inner, rfl, -⟩ := splitComment_of_nestedComment nested
          simp_all
  | @lineComment line one_line =>
      cases is_other with
      | blank blank =>
          rw [← (List.cons.inj same).1, dash] at blank
          contradiction
      | @lineComment line' one_line' =>
          have lines : line ++ '\n' :: rest = line' ++ '\n' :: rest' := by simpa using same
          obtain ⟨rfl, rest_eq⟩ :=
            (run_of_line one_line rest).unique (lines ▸ run_of_line one_line' rest')
          exact ⟨rfl, (List.cons.inj rest_eq).2⟩
      | blockComment nested =>
          obtain ⟨inner, rfl, -⟩ := splitComment_of_nestedComment nested
          simp at same
  | blockComment nested =>
      obtain ⟨inner, rfl, split⟩ := splitComment_of_nestedComment nested
      cases is_other with
      | blank blank =>
          rw [← (List.cons.inj same).1, slash] at blank
          contradiction
      | lineComment => simp at same
      | blockComment nested' =>
          obtain ⟨inner', rfl, split'⟩ := splitComment_of_nestedComment nested'
          have insides : inner ++ rest = inner' ++ rest' := by simpa using same
          have parts := split rest
          rw [insides, split' rest'] at parts
          cases parts
          exact ⟨rfl, rfl⟩

theorem skipComments_append (is_piece : FillerPiece piece) (rest : List Char) :
    skipComments (piece ++ rest) = skipComments rest := by
  cases is_piece with
  | blank blank => exact skipComments_of_trimLeft (by simp [Text.trimLeft, blank])
  | @lineComment line one_line =>
      rw [List.cons_append, List.cons_append, skipComments_lineComment, List.append_assoc]
      rw [List.singleton_append, (run_of_line one_line rest).dropWhile_eq]
      rfl
  | blockComment nested =>
      obtain ⟨inner, rfl, split⟩ := splitComment_of_nestedComment nested
      rw [List.cons_append, List.cons_append, skipComments_blockComment, split]
      rfl

end FillerPiece

/-- Blanks and complete comments are skipped. -/
theorem Filler.skipComments_append (is_filler : Filler filler) (rest : List Char) :
    skipComments (filler ++ rest) = skipComments rest := by
  induction is_filler with
  | nil => rfl
  | cons is_piece _ ih => rw [List.append_assoc, is_piece.skipComments_append, ih]

theorem exists_cut (text : List Char) : ∃ filler behind, Cut text filler behind := by
  induction length_eq : text.length using Nat.strongRecOn generalizing text with
  | ind length ih =>
      by_cases begins : ∃ piece, FillerPiece piece ∧ piece <+: text
      · obtain ⟨piece, is_piece, rest, rfl⟩ := begins
        have piece_pos := List.length_pos_iff.mpr is_piece.ne_nil
        rw [List.length_append] at length_eq
        obtain ⟨filler, behind, append_eq, is_filler, stops⟩ :=
          ih rest.length (by omega) rest rfl
        exact ⟨piece ++ filler, behind, by rw [List.append_assoc, append_eq],
          .cons is_piece is_filler, stops⟩
      · exact ⟨[], text, rfl, .nil, fun piece is_piece front => begins ⟨piece, is_piece, front⟩⟩

theorem skipComments_eq_self (not_blank : ∀ c ∈ text.head?, Text.isBlank c = false)
    (no_line : ¬['-', '-'] <+: text) (no_block : ¬['/', '*'] <+: text) :
    skipComments text = text := by
  have trimmed : Text.trimLeft text = text := by
    have run : Text.Run Text.isBlank text [] text := ⟨rfl, by simp, not_blank⟩
    exact run.dropWhile_eq
  rw [skipComments]
  split
  · rename_i rest text_eq
    rw [trimmed] at text_eq
    exact (no_line ⟨rest, text_eq.symm⟩).elim
  · rename_i rest text_eq
    rw [trimmed] at text_eq
    exact (no_block ⟨rest, text_eq.symm⟩).elim
  · exact trimmed

/-- Where no blank and no complete comment begins, a comment that does not end takes everything, and
nothing is skipped otherwise. -/
theorem skipComments_of_stops (stops : ∀ piece, FillerPiece piece → ¬piece <+: text) :
    Unclosed text ∧ skipComments text = [] ∨ ¬Unclosed text ∧ skipComments text = text := by
  have not_blank : ∀ c ∈ text.head?, Text.isBlank c = false := by
    intro c head
    obtain ⟨rest, rfl⟩ := List.head?_eq_some_iff.mp head
    exact Bool.eq_false_iff.mpr fun blank => stops [c] (.blank blank) ⟨rest, rfl⟩
  by_cases line : ['-', '-'] <+: text
  · obtain ⟨rest, rfl⟩ := line
    have unended : '\n' ∉ rest := by
      intro member
      obtain ⟨front, back, rfl, one_line⟩ := List.eq_append_cons_of_mem member
      exact stops _ (.lineComment one_line) ⟨back, by simp⟩
    refine .inl ⟨.inl ⟨List.prefix_append _ rest, by simpa using unended⟩, ?_⟩
    have whole : Text.Run (· != '\n') rest rest [] :=
      { append_eq := List.append_nil rest
        inside := fun c member => bne_iff_ne.mpr fun feed => unended (feed ▸ member)
        boundary := by simp }
    change skipComments ('-' :: '-' :: rest) = []
    rw [skipComments_lineComment, whole.dropWhile_eq]
    exact skipComments_nil
  by_cases block : ['/', '*'] <+: text
  · obtain ⟨rest, rfl⟩ := block
    have incomplete : ¬TokenKind.blockComment.Leads ('/' :: '*' :: rest) := by
      rintro ⟨comment, after, same, nested⟩
      exact stops comment (.blockComment nested) ⟨after, same⟩
    have unsplit : splitComment 0 rest = none :=
      Option.eq_none_iff_forall_ne_some.mpr fun parts found =>
        incomplete (Lexeme.nestedComment_iff.mpr ⟨parts, found⟩)
    refine .inl ⟨.inr ⟨List.prefix_append _ rest, incomplete⟩, ?_⟩
    change skipComments ('/' :: '*' :: rest) = []
    rw [skipComments_blockComment, unsplit]
    exact skipComments_nil
  · refine .inr ⟨?_, skipComments_eq_self not_blank line block⟩
    rintro (⟨opens, -⟩ | ⟨opens, -⟩)
    · exact line opens
    · exact block opens

end Server
end SqlScript
