import SqlScript.Number.Nearest
import SqlScript.Toml.Quoted
import SqlScript.Toml.Value

/-!
# Numbers, truth values and dates in TOML

Each of them is written without blanks, a date and its time apart.  Underscores may stand between
digits; decimal numbers have no leading zeros; whole numbers fit into sixty-four bits with a sign;
a date exists in the calendar.
-/

namespace SqlScript
namespace Toml

/-- The digits of a number without the underscores between them. -/
def groupedDigits? (isDigit : Char → Bool) : List Char → Option (List Char)
  | [] => none
  | [c] => if isDigit c then some [c] else none
  | c :: '_' :: rest => if isDigit c then (groupedDigits? isDigit rest).map (c :: ·) else none
  | c :: d :: rest => if isDigit c then (groupedDigits? isDigit (d :: rest)).map (c :: ·) else none

/-- The value of a row of digits, none of which exceeds the base. -/
def digitsValue (base : Nat) (digits : List Char) : Nat :=
  digits.foldl (fun value c => base * value + ((Reader.hexValue? [c]).getD 0)) 0

/-- A digit to base sixteen. -/
def isHexDigit (c : Char) : Bool :=
  (Reader.hexValue? [c]).isSome

/-- A digit to base eight. -/
def isOctalDigit (c : Char) : Bool :=
  '0' ≤ c && c ≤ '7'

/-- A digit to base two. -/
def isBinaryDigit (c : Char) : Bool :=
  c == '0' || c == '1'

/-- Whether a sign in front says that the number is negative, and the text behind it. -/
def splitSign : List Char → Bool × List Char
  | '-' :: rest => (true, rest)
  | '+' :: rest => (false, rest)
  | text => (false, text)

/-- The digits of a decimal number without leading zeros. -/
def decimalDigits? (text : List Char) : Option (List Char) := do
  let digits ← groupedDigits? Char.isDigit text
  if digits.head? = some '0' && digits != ['0'] then none else some digits

/-- A whole number that fits. -/
def boundedInteger? (negative : Bool) (magnitude : Nat) : Option Value :=
  let number : Int := if negative then -(magnitude : Int) else magnitude
  if Int64.minValue.toInt ≤ number && number ≤ Int64.maxValue.toInt then some (.integer number)
  else none

/-- A whole number. -/
def integer? : List Char → Option Value
  | '0' :: 'x' :: text => do
      boundedInteger? false (digitsValue 16 (← groupedDigits? isHexDigit text))
  | '0' :: 'o' :: text => do
      boundedInteger? false (digitsValue 8 (← groupedDigits? isOctalDigit text))
  | '0' :: 'b' :: text => do
      boundedInteger? false (digitsValue 2 (← groupedDigits? isBinaryDigit text))
  | text => do
      let (negative, text) := splitSign text
      boundedInteger? negative (digitsValue 10 (← decimalDigits? text))

/-- A character that begins an exponent. -/
def isExponentMark (c : Char) : Bool :=
  c == 'e' || c == 'E'

/-- The exponent at the end of a number, zero if there is none. -/
def exponent? : List Char → Option Int
  | [] => some 0
  | mark :: text => do
      if !isExponentMark mark then none
      let (negative, text) := splitSign text
      let magnitude := digitsValue 10 (← groupedDigits? Char.isDigit text)
      return if negative then -(magnitude : Int) else magnitude

/-- A number with a fraction or an exponent.  One that exceeds the range upwards is refused. -/
def decimal? (negative : Bool) (text : List Char) : Option Value := do
  let whole := text.takeWhile fun c => c != '.' && !isExponentMark c
  let digits ← decimalDigits? whole
  let number ←
    match text.dropWhile fun c => c != '.' && !isExponentMark c with
    | [] => none
    | '.' :: behind =>
        let fraction ← groupedDigits? Char.isDigit (behind.takeWhile (!isExponentMark ·))
        let exponent ← exponent? (behind.dropWhile (!isExponentMark ·))
        some (Number.nearest negative (digitsValue 10 (digits ++ fraction))
          (exponent - fraction.length))
    | behind =>
        let exponent ← exponent? behind
        some (Number.nearest negative (digitsValue 10 digits) exponent)
  if number = .infinity false then none else some (.float number)

/-- A number that is not written as a whole one. -/
def float? (text : List Char) : Option Value :=
  match splitSign text with
  | (negative, ['i', 'n', 'f']) =>
      some (.float (.infinity negative))
  | (negative, ['n', 'a', 'n']) => some (.float (.notNumber negative))
  | (negative, text) => decimal? negative text

/-- The number written in the next `count` digits, if it is in the range, and the text behind. -/
def fixedDigits? (count least greatest : Nat) (text : List Char) : Option (Nat × List Char) :=
  let digits := text.take count
  let number := digitsValue 10 digits
  if digits.length = count && digits.all Char.isDigit && least ≤ number && number ≤ greatest then
    some (number, text.drop count)
  else none

/-- The text behind a given character. -/
def behind? (c : Char) : List Char → Option (List Char)
  | [] => none
  | first :: rest => if first = c then some rest else none

/-- The number of days in a month. -/
def daysInMonth (year month : Nat) : Nat :=
  if month = 2 then
    if year % 4 = 0 && (year % 100 != 0 || year % 400 = 0) then 29 else 28
  else if [4, 6, 9, 11].contains month then 30
  else 31

/-- The text behind a date. -/
def behindDate? (text : List Char) : Option (List Char) := do
  let (year, text) ← fixedDigits? 4 0 9999 text
  let (month, text) ← fixedDigits? 2 1 12 (← behind? '-' text)
  let (_, text) ← fixedDigits? 2 1 (daysInMonth year month) (← behind? '-' text)
  return text

/-- The text behind a time of day, which may be a leap second. -/
def behindTime? (text : List Char) : Option (List Char) := do
  let (_, text) ← fixedDigits? 2 0 23 text
  let (_, text) ← fixedDigits? 2 0 59 (← behind? ':' text)
  let (_, text) ← fixedDigits? 2 0 60 (← behind? ':' text)
  match text with
  | '.' :: fraction =>
      if fraction.head?.any Char.isDigit then return fraction.dropWhile Char.isDigit else none
  | text => return text

/-- The text behind an offset from universal time, which may be left out. -/
def behindOffset? : List Char → Option (List Char)
  | 'Z' :: text => some text
  | 'z' :: text => some text
  | '+' :: text => distance text
  | '-' :: text => distance text
  | text => some text
where
  /-- The text behind the hours and minutes of an offset. -/
  distance (text : List Char) : Option (List Char) := do
    let (_, text) ← fixedDigits? 2 0 23 text
    let (_, text) ← fixedDigits? 2 0 59 (← behind? ':' text)
    return text

/-- Whether a text is a date, a time, or a date with a time. -/
def isMoment (text : List Char) : Bool :=
  match behindDate? text with
  | none => behindTime? text == some []
  | some [] => true
  | some (mark :: time) =>
      ['T', 't', ' '].contains mark && (behindTime? time).bind behindOffset? == some []

/-- The value of a word. -/
def scalar? (word : List Char) : Option Value :=
  if word = ['t', 'r', 'u', 'e'] then some (.boolean true)
  else if word = ['f', 'a', 'l', 's', 'e'] then some (.boolean false)
  else if isMoment word then some .moment
  else (integer? word).or (float? word)

/-- A character of a word. -/
def isWordCharacter (c : Char) : Bool :=
  c.isAlphanum || c == '_' || c == '+' || c == '-' || c == '.' || c == ':'

namespace Reader

/-- A number, a truth value or a date; a time may follow a date behind one space. -/
def scalar : Reader Value := do
  let word ← takeWhile isWordCharacter
  match ← get with
  | ' ' :: rest =>
      let longer := word ++ ' ' :: rest.takeWhile isWordCharacter
      if (behindDate? word) == some [] && isMoment longer then
        set (rest.dropWhile isWordCharacter)
        return .moment
  | _ => pure ()
  match scalar? word with
  | some value => return value
  | none => failure

end Reader
end Toml
end SqlScript
