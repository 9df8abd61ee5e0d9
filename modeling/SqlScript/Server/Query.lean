import SqlScript.Text.Ascii
import SqlScript.Text.Blank

/-!
# Queries

A batch returns rows if its first word, behind blanks and comments, is one that begins a query.
Comments are skipped by looking for the nearest delimiter.
-/

namespace SqlScript
namespace Server

/-- Where two characters first stand side by side, and the text behind them. -/
def findPair? (first second : Char) : List Char → Option (Nat × List Char)
  | [] => none
  | [_] => none
  | c :: d :: rest =>
      if c = first && d = second then some (0, rest)
      else (findPair? first second (d :: rest)).map fun found => (found.1 + 1, found.2)

theorem length_lt_of_findPair? {first second : Char} {text : List Char}
    {found : Nat × List Char} (here : findPair? first second text = some found) :
    found.2.length < text.length := by
  fun_induction findPair? first second text generalizing found with
  | case1 => contradiction
  | case2 => contradiction
  | case3 c d rest =>
      cases here
      simp only [List.length_cons]
      omega
  | case4 c d rest _ ih =>
      obtain ⟨inner, inner_eq, rfl⟩ := Option.map_eq_some_iff.mp here
      have shorter := ih inner_eq
      simp only [List.length_cons] at shorter ⊢
      omega

/-- The nearest delimiter of comments before which one is still closed: whether it opens another
comment, and the text behind it.  There is none where no comment is closed any more. -/
def nearestDelimiter? (text : List Char) : Option (Bool × List Char) :=
  match findPair? '*' '/' text, findPair? '/' '*' text with
  | none, _ => none
  | some closing, none => some (false, closing.2)
  | some closing, some opening =>
      if opening.1 < closing.1 then some (true, opening.2) else some (false, closing.2)

theorem length_lt_of_nearestDelimiter? {text : List Char} {found : Bool × List Char}
    (here : nearestDelimiter? text = some found) : found.2.length < text.length := by
  unfold nearestDelimiter? at here
  split at here
  · contradiction
  · rename_i closing closing_eq _
    cases here
    exact length_lt_of_findPair? closing_eq
  · rename_i closing opening closing_eq opening_eq
    split at here
    · cases here
      exact length_lt_of_findPair? opening_eq
    · cases here
      exact length_lt_of_findPair? closing_eq

/-- The text behind the end of a comment inside which `depth` further comments are open; nothing if
the comment does not end. -/
def skipBlockComment (depth : Nat) (text : List Char) : List Char :=
  match _found : nearestDelimiter? text with
  | none => []
  | some (true, behind) => skipBlockComment (depth + 1) behind
  | some (false, behind) =>
      match depth with
      | 0 => behind
      | depth + 1 => skipBlockComment depth behind
  termination_by text.length
  decreasing_by all_goals exact length_lt_of_nearestDelimiter? _found

theorem length_skipBlockComment_le (depth : Nat) (text : List Char) :
    (skipBlockComment depth text).length ≤ text.length := by
  fun_induction skipBlockComment depth text with
  | case1 => simp
  | case2 depth text behind found ih =>
      have shorter : behind.length < text.length := length_lt_of_nearestDelimiter? found
      omega
  | case3 text behind found =>
      exact Nat.le_of_lt (length_lt_of_nearestDelimiter? found)
  | case4 text behind found depth ih =>
      have shorter : behind.length < text.length := length_lt_of_nearestDelimiter? found
      omega

/-- The text without blanks and comments in front of it; nothing if a comment does not end. -/
def skipComments (text : List Char) : List Char :=
  match _trimmed : Text.trimLeft text with
  | '-' :: '-' :: rest => skipComments ((rest.dropWhile (· != '\n')).drop 1)
  | '/' :: '*' :: rest => skipComments (skipBlockComment 0 rest)
  | rest => rest
  termination_by text.length
  decreasing_by
    · have trimmed_le := (List.dropWhile_sublist (p := Text.isBlank) (l := text)).length_le
      have dropped_le := (List.dropWhile_sublist (p := (· != '\n')) (l := rest)).length_le
      rw [show text.dropWhile Text.isBlank = Text.trimLeft text from rfl, _trimmed] at trimmed_le
      simp only [List.length_cons, List.length_drop] at trimmed_le ⊢
      omega
    · have trimmed_le := (List.dropWhile_sublist (p := Text.isBlank) (l := text)).length_le
      have skipped_le := length_skipBlockComment_le 0 rest
      rw [show text.dropWhile Text.isBlank = Text.trimLeft text from rfl, _trimmed] at trimmed_le
      simp only [List.length_cons] at trimmed_le
      omega

/-- Whether a batch returns rows. -/
def returnsRows (sql : String) : Bool :=
  let keyword := (skipComments sql.toList).takeWhile Char.isAlpha
  Text.equalsIgnoringCase keyword ['s', 'e', 'l', 'e', 'c', 't'] ||
    Text.equalsIgnoringCase keyword ['w', 'i', 't', 'h']

end Server
end SqlScript
