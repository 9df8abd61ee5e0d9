import Mathlib.Data.List.Basic
import Mathlib.Data.List.TakeWhile
import SqlScript.Text.Ascii
import SqlScript.Text.Blank

/-!
# Trimming

Trimming on the right forgets blanks at the end and keeps a text whose last character is not blank.
A text with no blank at either end is left as it is.
-/

namespace SqlScript
namespace Text

theorem trimRight_append_of_blank (text : List Char) {blanks : List Char}
    (blank : isBlankText blanks = true) : trimRight (text ++ blanks) = trimRight text := by
  rw [trimRight, List.reverse_append, List.dropWhile_append_of_pos, trimRight]
  intro c member
  exact List.all_eq_true.mp blank c (List.mem_reverse.mp member)

theorem trimRight_eq_self {text : List Char} (last : ∀ c ∈ text.getLast?, isBlank c = false) :
    trimRight text = text := by
  rcases List.eq_nil_or_concat text with rfl | ⟨front, c, rfl⟩
  · rfl
  · have not_blank := last c (by simp)
    simp [trimRight, not_blank]

/-- Trimming only takes blanks away from the ends. -/
theorem append_of_trim (text : List Char) :
    ∃ lead tail, text = lead ++ (trim text ++ tail) ∧ isBlankText lead = true ∧
      isBlankText tail = true := by
  obtain ⟨blanks, text_eq, blank⟩ := trimRight_append_dropped text
  refine ⟨(trimRight text).takeWhile isBlank, blanks, ?_, List.all_takeWhile, blank⟩
  rw [trim, trimLeft, ← List.append_assoc, List.takeWhile_append_dropWhile]
  exact text_eq

/-- A character that is not blank stays. -/
theorem mem_trim_iff {text : List Char} {c : Char} (not_blank : isBlank c = false) :
    c ∈ trim text ↔ c ∈ text := by
  obtain ⟨lead, tail, text_eq, blank_lead, blank_tail⟩ := append_of_trim text
  have outside {blanks : List Char} (blank : isBlankText blanks = true) : c ∉ blanks := by
    intro member
    rw [List.all_eq_true.mp blank c member] at not_blank
    contradiction
  conv => rhs; rw [text_eq]
  simp [outside blank_lead, outside blank_tail]

theorem head_trimLeft (text : List Char) : ∀ c ∈ (trimLeft text).head?, isBlank c = false := by
  intro c head
  have stopped := List.head?_dropWhile_not isBlank text
  rw [show text.dropWhile isBlank = trimLeft text from rfl, Option.mem_def.mp head] at stopped
  simpa using stopped

theorem last_trimRight (text : List Char) :
    ∀ c ∈ (trimRight text).getLast?, isBlank c = false := by
  rw [trimRight, List.getLast?_reverse]
  exact head_trimLeft text.reverse

theorem last_trim (text : List Char) : ∀ c ∈ (trim text).getLast?, isBlank c = false := by
  intro c last
  have split : (trimRight text).takeWhile isBlank ++ trim text = trimRight text :=
    List.takeWhile_append_dropWhile
  refine last_trimRight text c ?_
  rw [← split]
  exact List.mem_getLast?_append_of_mem_getLast? last

theorem trimLeft_eq_self {text : List Char} (first : ∀ c ∈ text.head?, isBlank c = false) :
    trimLeft text = text := by
  cases text with
  | nil => rfl
  | cons c rest => exact List.dropWhile_cons_of_neg (by simp [first c rfl])

theorem trim_eq_self {text : List Char} (first : ∀ c ∈ text.head?, isBlank c = false)
    (last : ∀ c ∈ text.getLast?, isBlank c = false) : trim text = text := by
  rw [trim, trimRight_eq_self last, trimLeft_eq_self first]

theorem trim_append_of_blank (text : List Char) {blanks : List Char}
    (blank : isBlankText blanks = true) : trim (text ++ blanks) = trim text := by
  rw [trim, trimRight_append_of_blank text blank, trim]

theorem isBlankText_of_last {text : List Char} (filled : text ≠ [])
    (last : ∀ c ∈ text.getLast?, isBlank c = false) : isBlankText text = false := by
  refine Bool.eq_false_iff.mpr fun blank => ?_
  have not_blank := last _ (List.getLast?_eq_some_getLast filled)
  rw [List.all_eq_true.mp blank _ (List.getLast_mem filled)] at not_blank
  contradiction

/-- Trimming on the left only leaves the blanks at the end. -/
theorem trimLeft_eq_append (text : List Char) :
    ∃ blanks, trimLeft text = trim text ++ blanks ∧ isBlankText blanks = true := by
  obtain ⟨blanks, text_eq, blank⟩ := trimRight_append_dropped text
  have split : trimLeft text =
      if (trim text).isEmpty then trimLeft blanks else trim text ++ blanks :=
    (congrArg trimLeft text_eq).trans List.dropWhile_append
  split at split
  · rename_i nothing
    have dropped : trimLeft blanks = [] := List.dropWhile_eq_nil_iff.mpr (List.all_eq_true.mp blank)
    exact ⟨[], by rw [split, List.isEmpty_iff.mp nothing, dropped, List.append_nil], rfl⟩
  · exact ⟨blanks, split, blank⟩

/-- The text is not empty, and neither of its ends is blank. -/
structure Trimmed (text : List Char) : Prop where
  first : ∃ c ∈ text.head?, isBlank c = false
  last : ∀ c ∈ text.getLast?, isBlank c = false

namespace Trimmed

variable {text : List Char}

theorem ne_nil (trimmed : Trimmed text) : text ≠ [] := by
  obtain ⟨c, head, -⟩ := trimmed.first
  rintro rfl
  contradiction

theorem trimLeft_eq (trimmed : Trimmed text) : trimLeft text = text := by
  obtain ⟨c, head, not_blank⟩ := trimmed.first
  cases text with
  | nil => contradiction
  | cons first rest =>
      cases head
      simp [trimLeft, not_blank]

theorem trim_eq (trimmed : Trimmed text) : trim text = text := by
  rw [trim, trimRight_eq_self trimmed.last, trimmed.trimLeft_eq]

/-- Blanks around the text are taken away. -/
theorem trim_surrounded {lead tail : List Char} (trimmed : Trimmed text)
    (blank_lead : isBlankText lead = true) (blank_tail : isBlankText tail = true) :
    trim (lead ++ (text ++ tail)) = text := by
  have last : ∀ c ∈ (lead ++ text).getLast?, isBlank c = false := by
    rw [List.getLast?_append_of_ne_nil _ trimmed.ne_nil]
    exact trimmed.last
  rw [← List.append_assoc, trim_append_of_blank _ blank_tail, trim, trimRight_eq_self last,
    trimLeft, List.dropWhile_append_of_pos (List.all_eq_true.mp blank_lead)]
  exact trimmed.trimLeft_eq

/-- A blank in front of the text is taken away. -/
theorem trim_cons {blank : Char} (is_blank : isBlank blank = true) (trimmed : Trimmed text) :
    trim (blank :: text) = text := by
  have blank_lead : isBlankText [blank] = true := by simp [isBlankText, is_blank]
  have blank_tail : isBlankText [] = true := rfl
  simpa using trimmed.trim_surrounded blank_lead blank_tail

end Trimmed

/-- A character of a word is not blank. -/
theorem not_isBlank_of_isWordCharacter {c : Char} (word : isWordCharacter c = true) :
    isBlank c = false := by
  have code : 48 ≤ c.toNat ∧ c.toNat ≤ 122 := by
    delta isWordCharacter Char.isAlphanum Char.isAlpha Char.isUpper Char.isLower Char.isDigit
      at word
    simp only [Bool.or_eq_true, Bool.and_eq_true, decide_eq_true_eq, beq_iff_eq, ge_iff_le,
      UInt32.le_iff_toNat_le] at word
    change (((65 ≤ c.toNat ∧ c.toNat ≤ 90) ∨ (97 ≤ c.toNat ∧ c.toNat ≤ 122)) ∨
      (48 ≤ c.toNat ∧ c.toNat ≤ 57)) ∨ c = '_' at word
    rcases word with ((upper | lower) | digit) | rfl
    · omega
    · omega
    · omega
    · decide
  have outside : ∀ range ∈ blankRanges, range.2 < 48 ∨ 122 < range.1 := by decide
  refine List.any_eq_false.mpr fun range member => ?_
  have range_outside := outside range member
  simp only [Bool.and_eq_true, decide_eq_true_eq]
  omega

end Text
end SqlScript
