import SqlScript.Proofs.Server.Comments

/-!
# The first word of a batch

A batch returns rows if the letters with which its first word begins are those of `SELECT` or
`WITH`.  These letters need not be the whole word, because a word also goes on with digits and with
some other characters.  Only where they are followed by one of those is a batch taken for a query
that is none (`Server.queries_recognized`).
-/

namespace SqlScript
namespace Server

/-- The letters of a word that begins a query, in any case. -/
def QueryLetters (letters : List Char) : Prop :=
  Text.lowercase letters = "select".toList ∨ Text.lowercase letters = "with".toList

/-- Behind blanks and complete comments stand the letters of a word that begins a query, in front of
`behind`. -/
def BeginsQuery (text behind : List Char) : Prop :=
  ∃ filler letters, filler ++ (letters ++ behind) = text ∧ Filler filler ∧ QueryLetters letters

/-- The first word is one that begins a query, taken to its full extent. -/
def QueryWord (continues : Char → Bool) (text : List Char) : Prop :=
  ∃ behind, BeginsQuery text behind ∧ ∀ c ∈ behind.head?, continues c = false

/-- The first word only begins with the letters of a word that begins a query, and what it goes on
with is no ASCII letter. -/
def CutShort (continues : Char → Bool) (text : List Char) : Prop :=
  ∃ c rest, BeginsQuery text (c :: rest) ∧ continues c = true ∧ c.isAlpha = false

theorem isAlpha_of_toLower {c : Char} (letter : c.toLower.isAlpha = true) : c.isAlpha = true := by
  unfold Char.toLower at letter
  split at letter
  · rename_i upper
    exact Bool.or_eq_true_iff.mpr (.inl (decide_eq_true upper))
  · exact letter

namespace QueryLetters

variable {letters other behind behind' : List Char}

theorem isAlpha (query : QueryLetters letters) : ∀ c ∈ letters, c.isAlpha = true := by
  intro c member
  have lower : c.toLower ∈ Text.lowercase letters := List.mem_map_of_mem member
  have all_letters : ∀ d ∈ Text.lowercase letters, d.isAlpha = true := by
    rcases query with select | with_word
    · rw [select]
      exact List.all_eq_true.mp (by decide)
    · rw [with_word]
      exact List.all_eq_true.mp (by decide)
  exact isAlpha_of_toLower (all_letters _ lower)

theorem equalsIgnoringCase_iff (letters : List Char) :
    (Text.equalsIgnoringCase letters ['s', 'e', 'l', 'e', 'c', 't'] ||
      Text.equalsIgnoringCase letters ['w', 'i', 't', 'h']) = true ↔ QueryLetters letters := by
  rw [Bool.or_eq_true, Text.equalsIgnoringCase, Text.equalsIgnoringCase, beq_iff_eq, beq_iff_eq]
  rfl

theorem ne_nil (query : QueryLetters letters) : letters ≠ [] := by
  rintro rfl
  exact absurd query (by unfold QueryLetters; decide)

/-- A text does not begin with the letters of two words. -/
theorem unique (query : QueryLetters letters) (query' : QueryLetters other)
    (same : letters ++ behind = other ++ behind') : behind = behind' := by
  have lower : Text.lowercase letters ++ Text.lowercase behind =
      Text.lowercase other ++ Text.lowercase behind' := by
    rw [← Text.lowercase_append, same, Text.lowercase_append]
  have lengths_eq : letters.length = other.length := by
    have length_eq (text : List Char) : (Text.lowercase text).length = text.length :=
      List.length_map Char.toLower
    rw [← length_eq letters, ← length_eq other]
    rcases query with select | with_word <;> rcases query' with select' | with_word' <;> simp_all
  exact (List.append_inj same lengths_eq).2

end QueryLetters

variable {text letters behind behind' : List Char} {sql : String}

theorem not_isBlank_of_isAlpha {c : Char} (letter : c.isAlpha = true) :
    Text.isBlank c = false :=
  Text.not_isBlank_of_isWordCharacter (by simp [Text.isWordCharacter, Char.isAlphanum, letter])

/-- Nothing is skipped in front of a letter. -/
theorem skipComments_of_isAlpha (first : ∃ c ∈ text.head?, c.isAlpha = true) :
    skipComments text = text := by
  obtain ⟨c, head, letter⟩ := first
  obtain ⟨rest, rfl⟩ := List.head?_eq_some_iff.mp head
  refine skipComments_eq_self ?_ ?_ ?_
  · rintro d ⟨⟩
    exact not_isBlank_of_isAlpha letter
  · rintro ⟨behind, same⟩
    rw [← (List.cons.inj same).1] at letter
    exact absurd letter (by decide)
  · rintro ⟨behind, same⟩
    rw [← (List.cons.inj same).1] at letter
    exact absurd letter (by decide)

theorem skipComments_of_query {filler : List Char} (is_filler : Filler filler)
    (query : QueryLetters letters) (behind : List Char) :
    skipComments (filler ++ (letters ++ behind)) = letters ++ behind := by
  rw [is_filler.skipComments_append]
  obtain ⟨c, rest, rfl⟩ := List.exists_cons_of_ne_nil query.ne_nil
  exact skipComments_of_isAlpha ⟨c, rfl, query.isAlpha c List.mem_cons_self⟩

/-- A text has one first word. -/
theorem BeginsQuery.unique (begins : BeginsQuery text behind) (begins' : BeginsQuery text behind') :
    behind = behind' := by
  obtain ⟨filler, letters, text_eq, is_filler, query⟩ := begins
  obtain ⟨filler', letters', text_eq', is_filler', query'⟩ := begins'
  refine query.unique query' ?_
  rw [← skipComments_of_query is_filler query, text_eq, ← text_eq',
    skipComments_of_query is_filler' query']

/-- A batch returns rows if its first letters, as far as they go, are those of a query. -/
theorem returnsRows_iff : returnsRows sql = true ↔ QueryWord Char.isAlpha sql.toList := by
  rw [returnsRows, QueryLetters.equalsIgnoringCase_iff]
  constructor
  · intro query
    obtain ⟨filler, behind, cut⟩ := exists_cut sql.toList
    have skipped : skipComments sql.toList = skipComments behind := by
      rw [← cut.append_eq, cut.filler.skipComments_append]
    rw [skipped] at query
    rcases skipComments_of_stops cut.stops with ⟨-, nothing⟩ | ⟨-, same⟩
    · rw [nothing] at query
      exact absurd rfl query.ne_nil
    · rw [same] at query
      have run := Text.run_takeWhile Char.isAlpha behind
      exact ⟨_, ⟨filler, _, by rw [run.append_eq, cut.append_eq], cut.filler, query⟩, run.boundary⟩
  · rintro ⟨behind, ⟨filler, letters, text_eq, is_filler, query⟩, boundary⟩
    have run : Text.Run Char.isAlpha (letters ++ behind) letters behind :=
      ⟨rfl, query.isAlpha, boundary⟩
    rw [← text_eq, skipComments_of_query is_filler query, run.takeWhile_eq]
    exact query

/-- A word that is cut short passes for the word of a query. -/
theorem CutShort.returnsRows {continues : Char → Bool} (cut : CutShort continues sql.toList) :
    returnsRows sql = true ∧ ¬QueryWord continues sql.toList := by
  obtain ⟨c, rest, begins, goes_on, not_letter⟩ := cut
  refine ⟨returnsRows_iff.mpr ⟨c :: rest, begins, ?_⟩, ?_⟩
  · rintro d ⟨⟩
    exact not_letter
  · rintro ⟨behind, begins', boundary⟩
    obtain rfl := begins.unique begins'
    rw [boundary c rfl] at goes_on
    contradiction

end Server
end SqlScript
