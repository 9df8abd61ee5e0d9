import SqlScript.Token.Lexeme

/-!
# Quotations and nested comments

A quotation and a nested comment are described without the functions that cut them out of a text: a
quotation by the grammar of its body, a comment by the depth of nesting behind each delimiter.  A
quotation is found exactly if a text begins with one that no further closing delimiter goes on
(`Lexeme.quotation_iff`), and a comment exactly if its depth returns to zero
(`Lexeme.nestedComment_iff`).
-/

namespace SqlScript
namespace Lexeme

/-- Characters other than `close`, and `close` written twice. -/
inductive QuotedBody (close : Char) : List Char → Prop
  | nil : QuotedBody close []
  | single {c : Char} {rest : List Char} :
      c ≠ close → QuotedBody close rest → QuotedBody close (c :: rest)
  | doubled {rest : List Char} : QuotedBody close rest → QuotedBody close (close :: close :: rest)

/-- A quotation that the text behind it does not continue by a further `close`. -/
structure Quotation (opener close : Char) (written after : List Char) : Prop where
  delimited : ∃ body, QuotedBody close body ∧ written = opener :: (body ++ [close])
  ends : after.head? ≠ some close

/-- The depth of nesting behind each delimiter and each other character, read from left to right.
A character belongs to one delimiter at most. -/
def depths : (depth : Nat) → List Char → List Nat
  | _, [] => []
  | depth, '/' :: '*' :: rest => (depth + 1) :: depths (depth + 1) rest
  | depth, '*' :: '/' :: rest => (depth - 1) :: depths (depth - 1) rest
  | depth, _ :: rest => depth :: depths depth rest

/-- The row of depths has a zero at its end and nowhere else. -/
def EndsAtZero (row : List Nat) : Prop :=
  ∃ inner, row = inner ++ [0] ∧ 0 ∉ inner

/-- A comment whose nesting returns to depth zero at its end and not before. -/
structure NestedComment (written : List Char) : Prop where
  opens : ['/', '*'] <+: written
  closes : EndsAtZero (depths 0 written)

theorem quotedBody_of_splitClosing {close : Char} {source : List Char}
    {parts : List Char × List Char} (found : splitClosing close source = some parts) :
    ∃ body, QuotedBody close body ∧ parts.1 = body ++ [close] ∧ parts.2.head? ≠ some close := by
  fun_induction splitClosing close source generalizing parts with
  | case1 => simp at found
  | case2 =>
      cases found
      exact ⟨[], .nil, rfl, by simp⟩
  | case3 => simp at found
  | case4 rest ih =>
      obtain ⟨inner, inner_eq, rfl⟩ := Option.map_eq_some_iff.mp found
      obtain ⟨body, quoted, front_eq, ends⟩ := ih inner_eq
      exact ⟨close :: close :: body, .doubled quoted, by simp [consFront, front_eq], ends⟩
  | case5 d rest d_ne =>
      cases found
      exact ⟨[], .nil, rfl, by simpa using d_ne⟩
  | case6 c d rest c_ne ih =>
      obtain ⟨inner, inner_eq, rfl⟩ := Option.map_eq_some_iff.mp found
      obtain ⟨body, quoted, front_eq, ends⟩ := ih inner_eq
      exact ⟨c :: body, .single c_ne quoted, by simp [consFront, front_eq], ends⟩

theorem splitClosing_of_quotedBody {close : Char} {body after : List Char}
    (quoted : QuotedBody close body) (ends : after.head? ≠ some close) :
    splitClosing close (body ++ close :: after) = some (body ++ [close], after) := by
  induction quoted with
  | nil =>
      cases after with
      | nil => simp [splitClosing]
      | cons d rest =>
          have d_ne : d ≠ close := by simpa using ends
          simp [splitClosing, d_ne]
  | @single c rest c_ne quoted ih =>
      cases rest with
      | nil => simp [splitClosing, c_ne, consFront] at ih ⊢; exact ih
      | cons d rest =>
          simp only [List.cons_append] at ih ⊢
          simp [splitClosing, c_ne, ih, consFront]
  | doubled quoted ih => simp [splitClosing, ih, consFront]

theorem quotation_iff {opener close : Char} {behind : List Char} :
    (∃ written after, written ++ after = opener :: behind ∧
        Quotation opener close written after) ↔
      ∃ parts, splitClosing close behind = some parts := by
  constructor
  · rintro ⟨_, after, source_eq, ⟨body, quoted, rfl⟩, ends⟩
    obtain rfl : body ++ close :: after = behind := by simpa using source_eq
    exact ⟨_, splitClosing_of_quotedBody quoted ends⟩
  · rintro ⟨parts, found⟩
    obtain ⟨body, quoted, front_eq, ends⟩ := quotedBody_of_splitClosing found
    refine ⟨opener :: parts.1, parts.2, ?_, ⟨body, quoted, by rw [front_eq]⟩, ends⟩
    rw [List.cons_append, append_of_splitClosing found]

theorem Quotation.opener_eq {opener close first : Char} {written after rest : List Char}
    (quotation : Quotation opener close written after)
    (source_eq : written ++ after = first :: rest) : opener = first := by
  obtain ⟨body, -, rfl⟩ := quotation.delimited
  exact (List.cons.inj source_eq).1

theorem endsAtZero_cons {depth : Nat} {row : List Nat} :
    EndsAtZero (depth :: row) ↔ depth = 0 ∧ row = [] ∨ depth ≠ 0 ∧ EndsAtZero row := by
  constructor
  · rintro ⟨inner, row_eq, positive⟩
    cases inner with
    | nil => exact .inl (by simpa using row_eq)
    | cons first inner =>
        obtain ⟨rfl, later_eq⟩ := List.cons.inj row_eq
        simp only [List.mem_cons, not_or] at positive
        exact .inr ⟨Ne.symm positive.1, inner, later_eq, positive.2⟩
  · rintro (⟨rfl, rfl⟩ | ⟨depth_ne, inner, rfl, positive⟩)
    · exact ⟨[], rfl, by simp⟩
    · exact ⟨depth :: inner, rfl, by simp [positive, Ne.symm depth_ne]⟩

theorem not_endsAtZero_nil : ¬EndsAtZero [] := by
  rintro ⟨inner, row_eq, -⟩
  simp at row_eq

theorem eq_nil_of_depths {depth : Nat} {source : List Char} (none_read : depths depth source = []) :
    source = [] := by
  fun_cases depths depth source <;> simp_all [depths]

/-- No delimiter begins at the first of two characters. -/
structure Between (first second : Char) : Prop where
  not_opens : ¬(first = '/' ∧ second = '*')
  not_closes : ¬(first = '*' ∧ second = '/')

theorem depths_between {first second : Char} (between : Between first second) (depth : Nat)
    (rest : List Char) :
    depths depth (first :: second :: rest) = depth :: depths depth (second :: rest) := by
  rw [depths]
  · rintro rest' rfl parts
    exact between.not_opens ⟨rfl, (List.cons.inj parts).1⟩
  · rintro rest' rfl parts
    exact between.not_closes ⟨rfl, (List.cons.inj parts).1⟩

theorem splitComment_between {first second : Char} (between : Between first second) (depth : Nat)
    (rest : List Char) :
    splitComment depth (first :: second :: rest) =
      (splitComment depth (second :: rest)).map (consFront first) := by
  rw [splitComment]
  · rintro rest' rfl parts
    exact between.not_opens ⟨rfl, (List.cons.inj parts).1⟩
  · rintro rest' - rfl parts
    exact between.not_closes ⟨rfl, (List.cons.inj parts).1⟩
  · rintro depth' rest' - rfl parts
    exact between.not_closes ⟨rfl, (List.cons.inj parts).1⟩

theorem depths_of_splitComment {depth : Nat} {source : List Char}
    {parts : List Char × List Char} (found : splitComment depth source = some parts) :
    EndsAtZero (depths (depth + 1) parts.1) := by
  fun_induction splitComment depth source generalizing parts with
  | case1 => simp at found
  | case2 depth rest ih =>
      obtain ⟨later, later_eq, rfl⟩ := Option.map_eq_some_iff.mp found
      simp [consFront, depths, endsAtZero_cons, ih later_eq]
  | case3 =>
      cases found
      simp [depths, endsAtZero_cons]
  | case4 depth rest ih =>
      obtain ⟨later, later_eq, rfl⟩ := Option.map_eq_some_iff.mp found
      simp [consFront, depths, endsAtZero_cons, ih later_eq]
  | case5 depth first rest not_opens not_last not_closes ih =>
      obtain ⟨later, later_eq, rfl⟩ := Option.map_eq_some_iff.mp found
      obtain ⟨second, front, front_eq⟩ : ∃ second front, later.1 = second :: front := by
        cases front_eq : later.1 with
        | nil => exact (not_endsAtZero_nil (by simpa [front_eq, depths] using ih later_eq)).elim
        | cons second front => exact ⟨second, front, rfl⟩
      have rest_eq : rest = second :: (front ++ later.2) := by
        rw [← append_of_splitComment later_eq, front_eq, List.cons_append]
      have between : Between first second := by
        refine ⟨?_, ?_⟩
        · rintro ⟨rfl, rfl⟩
          exact not_opens _ rfl rest_eq
        · rintro ⟨rfl, rfl⟩
          cases depth with
          | zero => exact not_last _ rfl rfl rest_eq
          | succ depth => exact not_closes _ _ rfl rfl rest_eq
      rw [consFront, front_eq, depths_between between, ← front_eq, endsAtZero_cons]
      exact .inr ⟨by simp, ih later_eq⟩

theorem splitComment_of_depths {depth : Nat} {written : List Char}
    (closes : EndsAtZero (depths (depth + 1) written)) (after : List Char) :
    splitComment depth (written ++ after) = some (written, after) := by
  generalize open_eq : depth + 1 = opened at closes
  fun_induction depths opened written generalizing depth with
  | case1 => exact (not_endsAtZero_nil closes).elim
  | case2 opened rest ih =>
      subst open_eq
      rcases endsAtZero_cons.mp closes with ⟨zero, -⟩ | ⟨-, closes⟩
      · contradiction
      · simp [splitComment, ih rfl closes, consFront]
  | case3 opened rest ih =>
      subst open_eq
      rcases endsAtZero_cons.mp closes with ⟨zero, none_read⟩ | ⟨positive, closes⟩
      · obtain rfl : depth = 0 := zero
        obtain rfl := eq_nil_of_depths none_read
        simp [splitComment]
      · obtain ⟨inner, rfl⟩ := Nat.exists_eq_succ_of_ne_zero positive
        simp [splitComment, ih rfl closes, consFront]
  | case4 opened first rest not_opens not_closes ih =>
      subst open_eq
      rcases endsAtZero_cons.mp closes with ⟨zero, -⟩ | ⟨-, closes⟩
      · contradiction
      · cases rest with
        | nil => exact (not_endsAtZero_nil closes).elim
        | cons second rest =>
            have between : Between first second :=
              ⟨fun both => not_opens rest both.1 (by rw [both.2]),
                fun both => not_closes rest both.1 (by rw [both.2])⟩
            have split := ih rfl closes
            rw [List.cons_append] at split
            rw [List.cons_append, List.cons_append, splitComment_between between, split]
            rfl

theorem nestedComment_iff {behind : List Char} :
    (∃ written after, written ++ after = '/' :: '*' :: behind ∧ NestedComment written) ↔
      ∃ parts, splitComment 0 behind = some parts := by
  constructor
  · rintro ⟨_, after, source_eq, ⟨inner, rfl⟩, closes⟩
    obtain rfl : inner ++ after = behind := by simpa using source_eq
    refine ⟨_, splitComment_of_depths ?_ after⟩
    simpa [depths, endsAtZero_cons] using closes
  · rintro ⟨parts, found⟩
    refine ⟨'/' :: '*' :: parts.1, parts.2, by simp [append_of_splitComment found],
      List.prefix_append ['/', '*'] parts.1, ?_⟩
    simpa [depths, endsAtZero_cons] using depths_of_splitComment found

end Lexeme
end SqlScript
