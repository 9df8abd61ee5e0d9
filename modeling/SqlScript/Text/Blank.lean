/-!
# Blank characters and trimming

Blank characters are those with the Unicode property `White_Space`.  Trimming removes them from the
ends of a text and nowhere else; a text of blank characters alone counts as blank.
-/

namespace SqlScript
namespace Text

/-- The code point ranges of the property `White_Space`, both ends included. -/
def blankRanges : List (Nat × Nat) :=
  [(0x09, 0x0D), (0x20, 0x20), (0x85, 0x85), (0xA0, 0xA0), (0x1680, 0x1680), (0x2000, 0x200A),
    (0x2028, 0x2029), (0x202F, 0x202F), (0x205F, 0x205F), (0x3000, 0x3000)]

/-- A character with the property `White_Space`. -/
def isBlank (c : Char) : Bool :=
  blankRanges.any fun (first, last) => first ≤ c.toNat && c.toNat ≤ last

/-- The text without its leading blank characters. -/
def trimLeft (text : List Char) : List Char :=
  text.dropWhile isBlank

/-- The text without its trailing blank characters. -/
def trimRight (text : List Char) : List Char :=
  (text.reverse.dropWhile isBlank).reverse

/-- The text without blank characters at either end. -/
def trim (text : List Char) : List Char :=
  trimLeft (trimRight text)

/-- A text without any character that is not blank. -/
def isBlankText (text : List Char) : Bool :=
  text.all isBlank

theorem isBlankText_append (front back : List Char) :
    isBlankText (front ++ back) = (isBlankText front && isBlankText back) := by
  simp [isBlankText]

theorem trimRight_append_dropped (text : List Char) :
    ∃ blanks, text = trimRight text ++ blanks ∧ isBlankText blanks = true := by
  refine ⟨(text.reverse.takeWhile isBlank).reverse, ?_, ?_⟩
  · rw [trimRight, ← List.reverse_append, List.takeWhile_append_dropWhile, List.reverse_reverse]
  · simp only [isBlankText, List.all_reverse, List.all_eq_true]
    intro c member
    exact List.all_eq_true.mp List.all_takeWhile c member

end Text
end SqlScript
