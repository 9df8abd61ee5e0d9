import SqlScript.Toml.Reader

/-!
# Quoted texts in TOML

A text stands in double quotes, with escapes, or in single quotes, without any.  Three quotes in a
row open a text that may span lines; a line end right behind them does not belong to it.
-/

namespace SqlScript
namespace Toml
namespace Reader

/-- The number that a row of hexadecimal digits denotes. -/
def hexValue? (digits : List Char) : Option Nat :=
  digits.foldlM (fun value c =>
    if c.isDigit then some (16 * value + (c.toNat - '0'.toNat))
    else if 'a' ≤ c && c ≤ 'f' then some (16 * value + (c.toNat - 'a'.toNat + 10))
    else if 'A' ≤ c && c ≤ 'F' then some (16 * value + (c.toNat - 'A'.toNat + 10))
    else none) 0

/-- The character whose code is written in the next `count` hexadecimal digits. -/
def codePoint (count : Nat) : Reader Char := do
  let source ← get
  let digits := source.take count
  if digits.length < count then failure
  match hexValue? digits with
  | none => failure
  | some code =>
      if code.isValidChar then
        set (source.drop count)
        return Char.ofNat code
      else failure

/-- The character of an escape behind its backslash. -/
def escaped : Reader Char := do
  match ← next with
  | 'b' => return '\x08'
  | 't' => return '\t'
  | 'n' => return '\n'
  | 'f' => return '\x0c'
  | 'r' => return '\r'
  | '"' => return '"'
  | '\\' => return '\\'
  | 'u' => codePoint 4
  | 'U' => codePoint 8
  | _ => failure

/-- The rest of a text on one line, up to `quote`. -/
def lineText (quote : Char) : (fuel : Nat) → Reader (List Char)
  | 0 => failure
  | fuel + 1 => do
      let c ← next
      if c = quote then return []
      else if c = '\\' && quote = '"' then
        let c ← escaped
        return c :: (← lineText quote fuel)
      else if isPlain c then return c :: (← lineText quote fuel)
      else failure

/-- Whether a backslash here joins this line to the next text, as it does before a line end. -/
def joinsLines (source : List Char) : Bool :=
  match source.dropWhile isGap with
  | '\n' :: _ => true
  | '\r' :: '\n' :: _ => true
  | _ => false

/-- Skip blanks and line ends. -/
def skipJoined : (fuel : Nat) → Reader Unit
  | 0 => return
  | fuel + 1 => do
      skipGap
      match ← peek with
      | some '\n' | some '\r' =>
          newline
          skipJoined fuel
      | _ => return

/-- The rest of a text on several lines, up to three times `quote`.  Up to two more quotes may stand
right before the closing ones. -/
def blockText (quote : Char) : (fuel : Nat) → Reader (List Char)
  | 0 => failure
  | fuel + 1 => do
      let source ← get
      let quotes := (source.takeWhile (· == quote)).length
      if 3 ≤ quotes then
        let inner := min (quotes - 3) 2
        set (source.drop (inner + 3))
        return List.replicate inner quote
      else
        match source with
        | [] => failure
        | '\r' :: _ | '\n' :: _ =>
            newline
            return '\n' :: (← blockText quote fuel)
        | c :: rest =>
            set rest
            if c = '\\' && quote = '"' then
              if joinsLines rest then
                rounds skipJoined
                blockText quote fuel
              else
                let c ← escaped
                return c :: (← blockText quote fuel)
            else if isPlain c then return c :: (← blockText quote fuel)
            else failure

/-- A text on one line, with its quotes. -/
def quotedLine (quote : Char) : Reader String := do
  expect [quote]
  return String.ofList (← rounds (lineText quote))

/-- A text with its quotes. -/
def quoted (quote : Char) : Reader String := do
  if ← accept [quote, quote, quote] then
    match ← peek with
    | some '\n' => newline
    | some '\r' => newline
    | _ => pure ()
    return String.ofList (← rounds (blockText quote))
  else quotedLine quote

/-- A character of a key without quotes. -/
def isKeyCharacter (c : Char) : Bool :=
  c.isAlphanum || c == '_' || c == '-'

/-- One part of a key. -/
def keyPart : Reader String := do
  match ← peek with
  | some '"' => quotedLine '"'
  | some '\x27' => quotedLine '\x27'
  | _ =>
      match ← takeWhile isKeyCharacter with
      | [] => failure
      | part => return String.ofList part

/-- The parts of a key that stand behind the first, in order. -/
def moreKeyParts : (fuel : Nat) → Reader (List String)
  | 0 => failure
  | fuel + 1 => do
      if ← accept ['.'] then
        skipGap
        let part ← keyPart
        skipGap
        return part :: (← moreKeyParts fuel)
      else return []

/-- The number of parts that a key must not reach. -/
def keyPartLimit : Nat :=
  80

/-- A key: the parts before the last, and the last. -/
def key : Reader (List String × String) := do
  skipGap
  let first ← keyPart
  skipGap
  let parts := first :: (← rounds moreKeyParts)
  if keyPartLimit ≤ parts.length then failure
  return (parts.dropLast, parts.getLastD first)

end Reader
end Toml
end SqlScript
