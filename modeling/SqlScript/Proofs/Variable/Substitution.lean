import Mathlib.Data.List.DropRight
import Mathlib.Data.String.Basic
import SqlScript.Proofs.Text.Run
import SqlScript.Proofs.Variable.Histories
import SqlScript.Variable.Substitution

/-!
# Exactness of substitution

A scan cuts a text into links, each of which ends with a reference, and a rest.  The next reference
begins at the first `$(` of the rest and ends at the first `)` behind that.  Substitution succeeds
if each reference that the scan meets is one to a variable, and puts the values in their places;
otherwise it fails at the first reference that is not (`substitution_exact`).
-/

namespace SqlScript

namespace Position

/-- The point behind a text.  Each line feed counts for a line, the column counts the characters of
the last line, and the offset counts bytes. -/
def behind (position : Position) (text : List Char) : Position where
  file := position.file
  line := position.line + UInt32.ofNat (text.count '\n')
  column := (if '\n' ∈ text then 1 else position.column) +
    UInt32.ofNat (text.rtakeWhile (· != '\n')).length
  offset := position.offset + String.utf8Len text

theorem advance_eq_behind (position : Position) (text : List Char) :
    position.advance text = position.behind text := by
  induction text using List.reverseRec with
  | nil => simp [behind]
  | append_singleton text c ih =>
      rw [advance_append, ih]
      by_cases feed : c = '\n'
      · simp [step, behind, feed, UInt32.add_assoc, Nat.add_assoc]
      · simp [step, behind, feed, Ne.symm feed, UInt32.add_assoc, Nat.add_assoc]

end Position

namespace Variable

/-- No reference begins in the text. -/
def Plain (text : List Char) : Prop :=
  ¬['$', '('] <:+: text

/-- A stretch of text up to the end of its first reference. -/
structure Link where
  /-- What stands before the reference. -/
  before : List Char
  name : List Char

/-- The link as it stands in the text. -/
def Link.written (link : Link) : List Char :=
  link.before ++ '$' :: '(' :: (link.name ++ [')'])

/-- The scan of `text` has passed the links and stands before `rest`. -/
structure Scan (text : List Char) (links : List Link) (rest : List Char) : Prop where
  append_eq : links.flatMap Link.written ++ rest = text
  /-- Each reference begins at the first `$(`. -/
  plain : ∀ link ∈ links, Plain link.before
  /-- Each reference ends at the first closing parenthesis. -/
  closed : ∀ link ∈ links, ')' ∉ link.name

/-- The scan of `text` meets a `$(` behind the links and `before`, with `behind` behind it. -/
def Opens (text : List Char) (links : List Link) (before behind : List Char) : Prop :=
  Scan text links (before ++ '$' :: '(' :: behind) ∧ Plain before

theorem Scan.nil (text : List Char) : Scan text [] text where
  append_eq := rfl
  plain := by simp
  closed := by simp

theorem Scan.cons {links : List Link} {before name behind rest : List Char} (plain : Plain before)
    (closed : ')' ∉ name) (scan : Scan behind links rest) :
    Scan (before ++ '$' :: '(' :: (name ++ ')' :: behind)) ({ before, name } :: links) rest where
  append_eq := by simp [Link.written, ← scan.append_eq]
  plain := List.forall_mem_cons.mpr ⟨plain, scan.plain⟩
  closed := List.forall_mem_cons.mpr ⟨closed, scan.closed⟩

/-- No reference begins in `text`, which stands before `rest`. -/
def PlainBefore (text rest : List Char) : Prop :=
  ∀ inner outer, text = inner ++ outer → outer ≠ [] → ¬['$', '('] <+: outer ++ rest

theorem PlainBefore.tail {c : Char} {text rest : List Char} (plain : PlainBefore (c :: text) rest) :
    PlainBefore text rest :=
  fun inner outer text_eq => plain (c :: inner) outer (by rw [text_eq]; rfl)

/-- Only a parenthesis behind a plain text makes a reference begin in it. -/
theorem Plain.before {text rest : List Char} (plain : Plain text)
    (parted : rest.head? ≠ some '(') : PlainBefore text rest := by
  rintro inner (_ | ⟨c, _ | ⟨d, outer⟩⟩) rfl outer_ne ⟨behind, opens⟩
  · contradiction
  · obtain ⟨rfl, rfl⟩ : '$' = c ∧ '(' :: behind = rest := by simpa using opens
    exact parted rfl
  · obtain ⟨rfl, rfl, -⟩ : '$' = c ∧ '(' = d ∧ _ := by simpa using opens
    exact plain ⟨inner, outer, by simp⟩

/-- A text has a first `$(`, unless it is plain. -/
theorem plain_or_opens (text : List Char) :
    Plain text ∨ ∃ before behind, text = before ++ '$' :: '(' :: behind ∧ Plain before := by
  induction text with
  | nil => exact .inl (by simp [Plain])
  | cons c text ih =>
      by_cases opens : ['$', '('] <+: c :: text
      · obtain ⟨behind, text_eq⟩ := opens
        exact .inr ⟨[], behind, text_eq.symm, by simp [Plain]⟩
      rcases ih with plain | ⟨before, behind, rfl, plain⟩
      · exact .inl fun inside => (List.infix_cons_iff.mp inside).elim opens plain
      · refine .inr ⟨c :: before, behind, rfl, fun inside => ?_⟩
        rcases List.infix_cons_iff.mp inside with front | inside
        · exact opens (front.trans (List.prefix_append (c :: before) _))
        · exact plain inside

theorem map_append_nil (result : Except ParseError (List Char)) :
    result.map ([] ++ ·) = result := by
  cases result <;> rfl

theorem map_append_map (front back : List Char) (result : Except ParseError (List Char)) :
    (result.map (back ++ ·)).map (front ++ ·) = result.map (front ++ back ++ ·) := by
  cases result <;> simp [Except.map]

theorem splitReference?_eq_some_iff {text name behind : List Char} :
    splitReference? text = some (name, behind) ↔ text = name ++ ')' :: behind ∧ ')' ∉ name := by
  have run := Text.run_takeWhile (· != ')') text
  unfold splitReference?
  constructor
  · intro split
    split at split
    · contradiction
    · rename_i close rest dropped
      cases split
      rw [dropped] at run
      have close_eq : close = ')' := by simpa using run.boundary close rfl
      exact ⟨close_eq ▸ run.append_eq.symm, fun member => by simpa using run.inside ')' member⟩
  · rintro ⟨rfl, closed⟩
    have first_run : Text.Run (· != ')') (name ++ ')' :: behind) name (')' :: behind) :=
      { append_eq := rfl
        inside := fun c member => bne_iff_ne.mpr fun same => closed (same ▸ member)
        boundary := by simp }
    simp [first_run.takeWhile_eq, first_run.dropWhile_eq]

namespace Table

/-- The name is valid, and it is that of a variable with this value, in any case. -/
def Refers (table : Table) (name : List Char) (value : String) : Prop :=
  isName name = true ∧
    ∃ entry ∈ table.entries,
      Text.uppercase entry.name.toList = Text.uppercase name ∧ entry.value = value

/-- Behind a `$(`, a reference to a variable is completed. -/
def Resolves (table : Table) (behind : List Char) : Prop :=
  ∃ name rest value, behind = name ++ ')' :: rest ∧ ')' ∉ name ∧ table.Refers name value

/-- What is wrong with what stands behind a `$(`. -/
inductive Offends (table : Table) (behind : List Char) : ParseCause → Prop
  | unclosed : ')' ∉ behind → Offends table behind .malformedReference
  | misnamed {name rest : List Char} : behind = name ++ ')' :: rest → ')' ∉ name →
      isName name = false → Offends table behind .malformedReference
  | undefined {name rest : List Char} : behind = name ++ ')' :: rest → ')' ∉ name →
      isName name = true → (∀ value, ¬table.Refers name value) →
        Offends table behind (.undefinedVariable (String.ofList name))

/-- The links become `filled` with values in place of their references. -/
inductive Fills (table : Table) : List Link → List Char → Prop
  | nil : Fills table [] []
  | cons {link : Link} {links : List Link} {value : String} {filled : List Char} :
      table.Refers link.name value → Fills table links filled →
        Fills table (link :: links) (link.before ++ value.toList ++ filled)

variable {table : Table} {position : Position} {name behind : List Char}

theorem refers_iff {value : String} : table.Refers name value ↔
    isName name = true ∧ table.get? (String.ofList name) = some value := by
  simp only [Refers, get?_eq_some_iff, key, keyOf, String.toList_ofList, String.ofList_inj]

theorem resolve_of_refers {value : String} (refers : table.Refers name value) :
    table.resolve (String.ofList name) position = .ok value := by
  rw [resolve, (refers_iff.mp refers).2]

theorem resolve_of_undefined (named : isName name = true)
    (undefined : ∀ value, ¬table.Refers name value) :
    table.resolve (String.ofList name) position =
      .error { cause := .undefinedVariable (String.ofList name), position } := by
  have missing : table.get? (String.ofList name) = none :=
    Option.eq_none_iff_forall_ne_some.mpr fun value found =>
      undefined value (refers_iff.mpr ⟨named, found⟩)
  rw [resolve, missing]

/-- A text whose first `$(` is not completed to a reference to a variable offends in one way. -/
theorem resolves_or_offends (table : Table) (behind : List Char) :
    table.Resolves behind ∨ ∃ cause, table.Offends behind cause := by
  by_cases close : ')' ∈ behind
  · obtain ⟨name, rest, behind_eq, closed⟩ := List.eq_append_cons_of_mem close
    cases named : isName name with
    | false => exact .inr ⟨_, .misnamed behind_eq closed named⟩
    | true =>
        by_cases refers : ∃ value, table.Refers name value
        · obtain ⟨value, refers⟩ := refers
          exact .inl ⟨name, rest, value, behind_eq, closed, refers⟩
        · exact .inr ⟨_, .undefined behind_eq closed named (not_exists.mp refers)⟩
  · exact .inr ⟨_, .unclosed close⟩

theorem Resolves.refers {rest : List Char} (resolves : table.Resolves (name ++ ')' :: rest))
    (closed : ')' ∉ name) : ∃ value, table.Refers name value := by
  obtain ⟨name', rest', value, behind_eq, closed', refers⟩ := resolves
  have split := splitReference?_eq_some_iff.mpr ⟨behind_eq, closed'⟩
  cases split.symm.trans (splitReference?_eq_some_iff.mpr ⟨rfl, closed⟩)
  exact ⟨value, refers⟩

theorem Offends.not_resolves {cause : ParseCause} (offends : table.Offends behind cause) :
    ¬table.Resolves behind := by
  intro resolves
  cases offends with
  | unclosed unclosed =>
      obtain ⟨name, rest, value, rfl, -⟩ := resolves
      simp at unclosed
  | misnamed behind_eq closed not_named =>
      subst behind_eq
      obtain ⟨value, refers⟩ := resolves.refers closed
      simp [refers.1] at not_named
  | undefined behind_eq closed _ undefined =>
      subst behind_eq
      obtain ⟨value, refers⟩ := resolves.refers closed
      exact undefined value refers

/-- What is written up to the end of a reference gives way to the value, which is left as it is. -/
theorem substitute_of_refers {value : String} (closed : ')' ∉ name)
    (refers : table.Refers name value) :
    table.substitute position ('$' :: '(' :: (name ++ ')' :: behind)) =
      (table.substitute (position.advance ('$' :: '(' :: (name ++ [')']))) behind).map
        (value.toList ++ ·) := by
  rw [substitute]
  split
  · rename_i unclosed
    simp [splitReference?_eq_some_iff.mpr ⟨rfl, closed⟩] at unclosed
  · rename_i name' behind' split
    cases split.symm.trans (splitReference?_eq_some_iff.mpr ⟨rfl, closed⟩)
    rw [if_pos refers.1, resolve_of_refers refers]
    rfl

theorem substitute_of_offends {cause : ParseCause} (offends : table.Offends behind cause) :
    table.substitute position ('$' :: '(' :: behind) = .error { cause, position } := by
  rw [substitute]
  cases offends with
  | unclosed unclosed =>
      split
      · rfl
      · rename_i name rest split
        simp [(splitReference?_eq_some_iff.mp split).1] at unclosed
  | misnamed behind_eq closed not_named =>
      have split_eq := splitReference?_eq_some_iff.mpr ⟨behind_eq, closed⟩
      split
      · rfl
      · rename_i split
        cases split.symm.trans split_eq
        simp [not_named]
  | undefined behind_eq closed named undefined =>
      have split_eq := splitReference?_eq_some_iff.mpr ⟨behind_eq, closed⟩
      split
      · rename_i unclosed
        simp [split_eq] at unclosed
      · rename_i split
        cases split.symm.trans split_eq
        rw [if_pos named, resolve_of_undefined named undefined]
        rfl

/-- A text in which no reference begins is passed over. -/
theorem substitute_append {before rest : List Char} (plain : PlainBefore before rest) :
    table.substitute position (before ++ rest) =
      (table.substitute (position.advance before) rest).map (before ++ ·) := by
  induction before generalizing position with
  | nil => exact (map_append_nil _).symm
  | cons c before ih =>
      have not_opens (behind : List Char) (c_eq : c = '$') : before ++ rest ≠ '(' :: behind :=
        fun text_eq => plain [] (c :: before) rfl (by simp) ⟨behind, by simp [c_eq, text_eq]⟩
      rw [List.cons_append, substitute, ih plain.tail]
      · exact map_append_map [c] before _
      · exact not_opens

/-- Substitution leaves a text alone in which no reference begins. -/
theorem substitute_eq_self (table : Table) (position : Position) {text : List Char}
    (plain : Plain text) : table.substitute position text = .ok text := by
  have passed := @substitute_append table position text [] (plain.before (by simp))
  simpa [substitute, Except.map] using passed

/-- Substitution behind a link, whose reference is one to a variable. -/
theorem substitute_link {link : Link} {value : String} {rest : List Char}
    (plain : Plain link.before) (closed : ')' ∉ link.name) (refers : table.Refers link.name value) :
    table.substitute position (link.written ++ rest) =
      (table.substitute (position.advance link.written) rest).map
        (link.before ++ value.toList ++ ·) := by
  have written_eq : link.written ++ rest =
      link.before ++ '$' :: '(' :: (link.name ++ ')' :: rest) := by simp [Link.written]
  rw [written_eq, substitute_append (plain.before (by simp)), substitute_of_refers closed refers,
    Link.written, Position.advance_append, map_append_map]

/-- Substitution behind the links that the scan has passed. -/
theorem Fills.substitute_eq {text rest filled : List Char} {links : List Link}
    (fills : table.Fills links filled) (scan : Scan text links rest) :
    table.substitute position text =
      (table.substitute (position.advance (links.flatMap Link.written)) rest).map
        (filled ++ ·) := by
  rw [← scan.append_eq]
  have plain := scan.plain
  have closed := scan.closed
  clear scan
  induction fills generalizing position with
  | nil => exact (map_append_nil _).symm
  | cons refers fills ih =>
      obtain ⟨plain_here, plain⟩ := List.forall_mem_cons.mp plain
      obtain ⟨closed_here, closed⟩ := List.forall_mem_cons.mp closed
      rw [List.flatMap_cons, List.append_assoc, substitute_link plain_here closed_here refers,
        ih plain closed, Position.advance_append, map_append_map]

/-- The scan ends with a plain rest, or it meets the first `$(` that offends. -/
theorem fills_or_offends (table : Table) (text : List Char) :
    (∃ links rest filled, Scan text links rest ∧ Plain rest ∧ table.Fills links filled) ∨
      ∃ links before behind filled cause, Opens text links before behind ∧
        table.Fills links filled ∧ table.Offends behind cause := by
  induction length_eq : text.length using Nat.strongRecOn generalizing text with
  | ind length ih =>
      rcases plain_or_opens text with plain | ⟨before, behind, rfl, plain⟩
      · exact .inl ⟨[], text, [], .nil text, plain, .nil⟩
      rcases table.resolves_or_offends behind with resolves | ⟨cause, offends⟩
      -- What the scan finds behind the reference comes behind one more link.
      · obtain ⟨name, rest, value, rfl, closed, refers⟩ := resolves
        have shorter : rest.length < length := by
          simp only [← length_eq, List.length_append, List.length_cons]
          omega
        rcases ih rest.length shorter rest rfl with ⟨links, last, filled, scan, plain_last, fills⟩ |
          ⟨links, front, last, filled, cause, ⟨scan, plain_front⟩, fills, offends⟩
        · exact .inl ⟨_, last, _, scan.cons plain closed, plain_last, .cons refers fills⟩
        · exact .inr ⟨_, front, last, _, cause, ⟨scan.cons plain closed, plain_front⟩,
            .cons refers fills, offends⟩
      · exact .inr ⟨[], before, behind, [], cause, ⟨.nil _, plain⟩, .nil, offends⟩

theorem substitute_eq_ok {text rest filled : List Char} {links : List Link}
    (scan : Scan text links rest) (plain : Plain rest) (fills : table.Fills links filled) :
    table.substitute position text = .ok (filled ++ rest) := by
  rw [fills.substitute_eq scan, substitute_eq_self table _ plain]
  rfl

theorem substitute_eq_error {text before filled : List Char} {links : List Link}
    {cause : ParseCause} (opens : Opens text links before behind)
    (fills : table.Fills links filled) (offends : table.Offends behind cause) :
    table.substitute position text =
      .error { cause, position := position.advance (links.flatMap Link.written ++ before) } := by
  rw [fills.substitute_eq opens.1, substitute_append (opens.2.before (by simp)),
    substitute_of_offends offends, Position.advance_append]
  rfl

/-- A text with a reference that offends cannot be substituted. -/
theorem resolves_of_substitute_append {before result : List Char} (plain : Plain before)
    (substituted : table.substitute position (before ++ '$' :: '(' :: behind) = .ok result) :
    table.Resolves behind := by
  refine (table.resolves_or_offends behind).resolve_right fun ⟨cause, offends⟩ => ?_
  rw [substitute_append (plain.before (by simp)), substitute_of_offends offends] at substituted
  cases substituted

/-- A text that can be substituted has references to variables wherever the scan meets a `$(`. -/
theorem resolves_of_substitute {text result before : List Char} {links : List Link}
    (substituted : table.substitute position text = .ok result)
    (opens : Opens text links before behind) : table.Resolves behind := by
  obtain ⟨⟨rfl, plain, closed⟩, plain_before⟩ := opens
  induction links generalizing position result with
  | nil => exact resolves_of_substitute_append plain_before substituted
  | cons link links ih =>
      obtain ⟨plain_here, plain⟩ := List.forall_mem_cons.mp plain
      obtain ⟨closed_here, closed⟩ := List.forall_mem_cons.mp closed
      rw [List.flatMap_cons, List.append_assoc] at substituted
      generalize links.flatMap Link.written ++ (before ++ '$' :: '(' :: behind) = rest at *
      have resolves : table.Resolves (link.name ++ ')' :: rest) :=
        resolves_of_substitute_append plain_here (by simpa [Link.written] using substituted)
      obtain ⟨value, refers⟩ := resolves.refers closed_here
      rw [substitute_link plain_here closed_here refers] at substituted
      cases later_eq : table.substitute (position.advance link.written) rest with
      | error failure => simp [later_eq, Except.map] at substituted
      | ok later => exact ih plain closed later_eq

/-- Substitution is exact.  It succeeds if the scan meets a reference to a variable at every `$(`,
and then each of them has given way to its value.  Otherwise the failure is about the first `$(`
that offends, and it is placed behind all that stands before it. -/
theorem substitution_exact (table : Table) (position : Position) (text : List Char) :
    ((∃ result, table.substitute position text = .ok result) ↔
        ∀ links before behind, Opens text links before behind → table.Resolves behind) ∧
      (∀ result, table.substitute position text = .ok result ↔
        ∃ links rest filled, Scan text links rest ∧ Plain rest ∧ table.Fills links filled ∧
          result = filled ++ rest) ∧
      ∀ failure, table.substitute position text = .error failure ↔
        ∃ links before behind filled cause, Opens text links before behind ∧
          table.Fills links filled ∧ table.Offends behind cause ∧
          failure =
            { cause, position := position.behind (links.flatMap Link.written ++ before) } := by
  simp only [← Position.advance_eq_behind]
  refine ⟨⟨?_, fun resolves => ?_⟩, fun result => ⟨fun substituted => ?_, ?_⟩,
    fun failure => ⟨fun failed => ?_, ?_⟩⟩
  · rintro ⟨result, substituted⟩ links before behind opens
    exact resolves_of_substitute substituted opens
  · rcases table.fills_or_offends text with ⟨links, rest, filled, scan, plain, fills⟩ |
      ⟨links, before, behind, filled, cause, opens, -, offends⟩
    · exact ⟨_, substitute_eq_ok scan plain fills⟩
    · exact (offends.not_resolves (resolves links before behind opens)).elim
  · rcases table.fills_or_offends text with ⟨links, rest, filled, scan, plain, fills⟩ |
      ⟨links, before, behind, filled, cause, opens, fills, offends⟩
    · cases substituted.symm.trans (substitute_eq_ok scan plain fills)
      exact ⟨links, rest, filled, scan, plain, fills, rfl⟩
    · cases substituted.symm.trans (substitute_eq_error opens fills offends)
  · rintro ⟨links, rest, filled, scan, plain, fills, rfl⟩
    exact substitute_eq_ok scan plain fills
  · rcases table.fills_or_offends text with ⟨links, rest, filled, scan, plain, fills⟩ |
      ⟨links, before, behind, filled, cause, opens, fills, offends⟩
    · cases failed.symm.trans (substitute_eq_ok scan plain fills)
    · cases failed.symm.trans (substitute_eq_error opens fills offends)
      exact ⟨links, before, behind, filled, cause, opens, fills, offends, rfl⟩
  · rintro ⟨links, before, behind, filled, cause, opens, fills, offends, rfl⟩
    exact substitute_eq_error opens fills offends

example : (ofList [("a", "$(b)")]).substitute (.startOf .script) "$ä)\n$(A)$(c)".toList =
    .error { cause := .undefinedVariable "c",
             position := { file := .script, line := 2, column := 5, offset := 9 } } := by
  decide +kernel

end Table
end Variable
end SqlScript
