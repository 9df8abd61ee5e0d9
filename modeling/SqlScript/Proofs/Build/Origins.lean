import SqlScript.Proofs.Build.Pieces

/-!
# Origins of the characters of batches

Every character of a batch comes from a token of the expanded script.  A character of a literal
token stands for itself in the source; a character of a value stands for the reference.  The line
map of a batch names, for each line, the origin of its first character, and the end of the last
contribution for a last line that has none.
-/

namespace SqlScript

/-- A character of a batch with its origin. -/
structure Glyph where
  char : Char
  /-- The point in the source that the character stands for. -/
  origin : Position
  /-- The token that contributed the character. -/
  token : Token

namespace Glyph

/-- The characters of a literal token from `position` on. -/
def literal (token : Token) : (position : Position) → List Char → List Glyph
  | _, [] => []
  | position, c :: text =>
      { char := c, origin := position, token } :: literal token (position.step c) text

/-- The characters of a value, all of which stand for the reference. -/
def value (token : Token) (text : List Char) : List Glyph :=
  text.map fun char => { char, origin := token.start, token }

/-- What a token contributes to a batch. -/
def ofToken (bindings : Variable.Table) (token : Token) : List Glyph :=
  match token.kind with
  | .reference name => value token ((bindings.get? name).getD "").toList
  | .separator _ | .command _ => []
  | _ => literal token token.start token.text.toList

/-- The rows of characters that are closed as batches if `gathered` is pending and `tokens`
follow. -/
def rows : (bindings : Variable.Table) → (gathered : List Glyph) → List Token → List (List Glyph)
  | _, gathered, [] => [gathered]
  | bindings, gathered, token :: tokens =>
      match token.kind with
      | .separator _ => gathered :: rows (bindings.after token) [] tokens
      | .command command =>
          match command.kind with
          | .quit => []
          | .exit => [gathered]
          | .reset => rows (bindings.after token) [] tokens
          | _ => rows (bindings.after token) gathered tokens
      | _ => rows (bindings.after token) (gathered ++ ofToken bindings token) tokens

theorem rows_of_literal {bindings : Variable.Table} {gathered : List Glyph} {token : Token}
    {tokens : List Token} (is_literal : token.kind.isLiteral = true) :
    rows bindings gathered (token :: tokens) =
      rows (bindings.after token) (gathered ++ literal token token.start token.text.toList)
        tokens := by
  cases kind_eq : token.kind <;> simp_all [rows, ofToken, TokenKind.isLiteral]

theorem rows_of_setting {bindings : Variable.Table} {gathered : List Glyph} {token : Token}
    {tokens : List Token} {command : Command} (kind_eq : token.kind = .command command)
    (other : command.kind ∉ [.includeFile, .list, .listVar, .reset, .quit, .exit]) :
    rows bindings gathered (token :: tokens) = rows (bindings.after token) gathered tokens := by
  cases name_eq : command.kind <;> simp_all [rows]

/-- Whether a line begins behind the row; `fresh` answers for an empty one. -/
def endsLine : (fresh : Bool) → List Glyph → Bool
  | fresh, [] => fresh
  | _, glyph :: row => endsLine (glyph.char == '\n') row

/-- The origins of the characters with which lines begin. -/
def lineStarts : (fresh : Bool) → List Glyph → List Position
  | _, [] => []
  | true, glyph :: row => glyph.origin :: lineStarts (glyph.char == '\n') row
  | false, glyph :: row => lineStarts (glyph.char == '\n') row

/-- The entries of the line map of a row. -/
def lineMap (row : List Glyph) : List Position :=
  lineStarts true row ++
    if endsLine false row then (row.getLast?.map fun glyph => glyph.token.stop).toList else []

@[simp]
theorem endsLine_concat (fresh : Bool) (row : List Glyph) (glyph : Glyph) :
    endsLine fresh (row ++ [glyph]) = (glyph.char == '\n') := by
  induction row generalizing fresh with
  | nil => rfl
  | cons first row ih => exact ih (first.char == '\n')

theorem endsLine_of_ne_nil {row : List Glyph} (fresh : Bool) (row_ne : row ≠ []) :
    endsLine fresh row = endsLine false row := by
  cases row with
  | nil => contradiction
  | cons => rfl

theorem lineStarts_append (fresh : Bool) (front back : List Glyph) :
    lineStarts fresh (front ++ back) =
      lineStarts fresh front ++ lineStarts (endsLine fresh front) back := by
  induction front generalizing fresh with
  | nil => rfl
  | cons glyph front ih =>
      cases fresh <;> simp [lineStarts, endsLine, ih]

/-- A line begins with the row and behind each line feed; the one behind the last line feed may be
missing. -/
theorem length_lineStarts (fresh : Bool) (row : List Glyph) :
    (lineStarts fresh row).length + (endsLine fresh row).toNat =
      (row.map char).count '\n' + fresh.toNat := by
  induction row generalizing fresh with
  | nil => simp [lineStarts, endsLine]
  | cons glyph row ih =>
      have rest := ih (glyph.char == '\n')
      rw [endsLine, List.map_cons, List.count_cons]
      cases fresh <;> cases is_feed : glyph.char == '\n' <;>
        simp [lineStarts, is_feed] at rest ⊢ <;> omega

theorem length_lineMap {row : List Glyph} (row_ne : row ≠ []) :
    (lineMap row).length = (row.map char).count '\n' + 1 := by
  have starts := length_lineStarts true row
  rw [endsLine_of_ne_nil true row_ne] at starts
  have last : (row.getLast?.map fun glyph => glyph.token.stop).toList.length = 1 := by
    simp [List.getLast?_eq_some_getLast row_ne]
  rw [lineMap, List.length_append]
  cases ends : endsLine false row
  · simpa [ends] using starts
  · simp [ends] at starts
    simp [last, starts]

/-- The entry of a line with characters is the origin of the first one. -/
theorem lineMap_of_first {before after : List Glyph} {glyph : Glyph}
    (fresh : endsLine true before = true) :
    (lineMap (before ++ glyph :: after))[(before.map char).count '\n']? = some glyph.origin := by
  have starts := length_lineStarts true before
  have length_eq : (lineStarts true before).length = (before.map char).count '\n' := by
    rw [fresh] at starts
    exact Nat.add_right_cancel starts
  rw [lineMap, lineStarts_append, fresh, ← length_eq, List.append_assoc,
    List.getElem?_append_right (Nat.le_refl _), Nat.sub_self]
  rfl

/-- The entry of a last line without characters is the end of the last contribution. -/
theorem lineMap_of_last {before : List Glyph} {glyph : Glyph} (feed : glyph.char = '\n') :
    (lineMap (before ++ [glyph]))[((before ++ [glyph]).map char).count '\n']? =
      some glyph.token.stop := by
  have row_ne : before ++ [glyph] ≠ [] := by simp
  have ends : endsLine true (before ++ [glyph]) = true := by simp [feed]
  have starts := length_lineStarts true (before ++ [glyph])
  have length_eq :
      (lineStarts true (before ++ [glyph])).length =
        ((before ++ [glyph]).map char).count '\n' := by
    rw [ends] at starts
    exact Nat.add_right_cancel starts
  rw [endsLine_of_ne_nil true row_ne] at ends
  rw [lineMap, ends, ← length_eq, List.getElem?_append_right (Nat.le_refl _), Nat.sub_self]
  simp

end Glyph

namespace Pending

open Glyph (lineStarts endsLine)

/-- The pending text and its line map are those of a row. -/
structure Gathers (pending : Pending) (row : List Glyph) : Prop where
  text_eq : pending.text.toList = row.map Glyph.char
  lineMap_eq : pending.lineMap.toList = lineStarts true row
  atLineStart_eq : pending.atLineStart = endsLine false row

/-- The pending batch is that of a row. -/
structure Holds (pending : Pending) (row : List Glyph) : Prop extends pending.Gathers row where
  first_eq : pending.first = none → row = []
  stop_eq : pending.stop = row.getLast?.map fun glyph => glyph.token.stop

variable {pending : Pending} {row : List Glyph}

theorem holds_empty (onSeparatorLine : Bool) : Holds { onSeparatorLine } [] where
  text_eq := rfl
  lineMap_eq := rfl
  atLineStart_eq := rfl
  first_eq _ := rfl
  stop_eq := rfl

theorem gathers_push (gathers : pending.Gathers row) (glyph : Glyph) :
    (pending.push glyph.origin glyph.char).Gathers (row ++ [glyph]) := by
  have starts_eq : (pending.atLineStart || pending.lineMap.isEmpty) = endsLine true row := by
    have isEmpty_eq : pending.lineMap.isEmpty = (lineStarts true row).isEmpty := by
      rw [← gathers.lineMap_eq]
      simp [LineMap.isEmpty, LineMap.toList]
    rw [isEmpty_eq, gathers.atLineStart_eq]
    cases row with
    | nil => rfl
    | cons first row =>
        rw [Glyph.endsLine_of_ne_nil true (List.cons_ne_nil first row)]
        simp [lineStarts]
  refine ⟨?_, ?_, ?_⟩
  · rw [toList_push, gathers.text_eq]
    simp
  · rw [Glyph.lineStarts_append, push, starts_eq]
    cases endsLine true row
    · simpa [lineStarts] using gathers.lineMap_eq
    · simpa [lineStarts] using gathers.lineMap_eq
  · simp [push]

theorem gathers_pushLiteral (gathers : pending.Gathers row) (token : Token) (position : Position)
    (text : List Char) :
    (pushLiteral position text pending).Gathers (row ++ Glyph.literal token position text) := by
  induction text generalizing position pending row with
  | nil => simpa [pushLiteral, Glyph.literal] using gathers
  | cons c text ih =>
      have pushed := gathers_push gathers { char := c, origin := position, token }
      have rest := ih pushed (position.step c)
      rwa [List.append_assoc] at rest

theorem gathers_pushValue (gathers : pending.Gathers row) (token : Token) (text : List Char) :
    (pushValue token.start text pending).Gathers (row ++ Glyph.value token text) := by
  induction text generalizing pending row with
  | nil => simpa [pushValue, Glyph.value] using gathers
  | cons c text ih =>
      have pushed := gathers_push gathers { char := c, origin := token.start, token }
      have rest := ih pushed
      rwa [List.append_assoc] at rest

/-- A contribution is held if its characters are gathered. -/
theorem holds_contribute (holds : pending.Holds row) {token : Token} {text : List Char}
    {fill : List Char → Pending → Pending} {added : List Glyph}
    (char_eq : added.map Glyph.char = text) (token_eq : ∀ glyph ∈ added, glyph.token = token)
    (gathers : (fill text pending).Gathers (row ++ added)) :
    (pending.contribute token.start token.stop text fill).Holds (row ++ added) := by
  unfold contribute
  split
  · rename_i text_empty
    have text_nil := List.isEmpty_iff.mp text_empty
    have added_nil : added = [] := List.map_eq_nil_iff.mp (char_eq.trans text_nil)
    rwa [added_nil, List.append_nil]
  · rename_i text_not_empty
    have added_ne : added ≠ [] := by
      rintro rfl
      simp [← char_eq] at text_not_empty
    have stop_eq : (row ++ added).getLast?.map (fun glyph => glyph.token.stop) =
        some token.stop := by
      rw [List.getLast?_append, List.getLast?_eq_some_getLast added_ne, Option.some_or,
        Option.map_some, token_eq _ (List.getLast_mem added_ne)]
    refine { gathers with first_eq := fun no_first => ?_, stop_eq := stop_eq.symm }
    cases first_eq : pending.first <;> simp [first_eq] at no_first

theorem map_char_literal (token : Token) (position : Position) (text : List Char) :
    (Glyph.literal token position text).map Glyph.char = text := by
  induction text generalizing position with
  | nil => rfl
  | cons c text ih => rw [Glyph.literal, List.map_cons, ih]

theorem token_of_mem_literal {token : Token} {position : Position} {text : List Char}
    {glyph : Glyph} (member : glyph ∈ Glyph.literal token position text) : glyph.token = token := by
  induction text generalizing position with
  | nil => cases member
  | cons c text ih =>
      rcases List.mem_cons.mp member with rfl | behind
      · rfl
      · exact ih behind

theorem holds_appendLiteral (holds : pending.Holds row) (token : Token) :
    (pending.appendLiteral token.start token.stop token.text).Holds
      (row ++ Glyph.literal token token.start token.text.toList) :=
  holds_contribute holds (map_char_literal token token.start token.text.toList)
    (fun _ => token_of_mem_literal)
    (gathers_pushLiteral holds.toGathers token token.start token.text.toList)

theorem holds_appendValue (holds : pending.Holds row) (token : Token) (value : String) :
    (pending.appendValue token.start token.stop value).Holds
      (row ++ Glyph.value token value.toList) := by
  refine holds_contribute holds ?_ ?_ (gathers_pushValue holds.toGathers token value.toList)
  · rw [Glyph.value, List.map_map]
    exact List.map_id _
  · intro glyph member
    obtain ⟨c, -, rfl⟩ := List.mem_map.mp member
    rfl

end Pending
end SqlScript
