/-!
# ASCII letters

Names and keywords are compared without regard to the case of ASCII letters; every other character
only equals itself.
-/

namespace SqlScript
namespace Text

/-- The text with its ASCII capitals replaced by small letters. -/
def lowercase (text : List Char) : List Char :=
  text.map Char.toLower

/-- The text with its small ASCII letters replaced by capitals. -/
def uppercase (text : List Char) : List Char :=
  text.map Char.toUpper

/-- Equality that disregards the case of ASCII letters. -/
def equalsIgnoringCase (left right : List Char) : Bool :=
  lowercase left == lowercase right

/-- A character of an unquoted word: an ASCII letter, an ASCII digit or an underscore. -/
def isWordCharacter (c : Char) : Bool :=
  c.isAlphanum || c == '_'

/-- The number that a row of decimal digits denotes. -/
def decimalValue (digits : List Char) : Nat :=
  digits.foldl (fun value digit => 10 * value + (digit.toNat - '0'.toNat)) 0

@[simp]
theorem lowercase_append (front back : List Char) :
    lowercase (front ++ back) = lowercase front ++ lowercase back :=
  List.map_append

@[simp]
theorem uppercase_append (front back : List Char) :
    uppercase (front ++ back) = uppercase front ++ uppercase back :=
  List.map_append

end Text
end SqlScript
