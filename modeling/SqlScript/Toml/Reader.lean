/-!
# Reading TOML texts

A reader takes a value from the front of a text or fails.  Layout consists of blanks, comments and
line ends; a line ends with a line feed, before which a carriage return may stand.
-/

namespace SqlScript
namespace Toml

/-- Takes a value from the front of a text. -/
abbrev Reader :=
  StateT (List Char) Option

namespace Reader

/-- A character that may stand in comments and quotes. -/
def isPlain (c : Char) : Bool :=
  c == '\t' || (0x20 ≤ c.toNat && c.toNat ≤ 0x7E) || 0x80 ≤ c.toNat

/-- A character that separates without ending the line. -/
def isGap (c : Char) : Bool :=
  c == ' ' || c == '\t'

/-- The next character, which stays. -/
def peek : Reader (Option Char) := do
  return (← get).head?

/-- The next character, which is taken. -/
def next : Reader Char := do
  match ← get with
  | [] => failure
  | c :: rest =>
      set rest
      return c

/-- Take the given text if it comes next. -/
def accept (text : List Char) : Reader Bool := do
  let source ← get
  if text.isPrefixOf source then
    set (source.drop text.length)
    return true
  else
    return false

/-- Take the given text. -/
def expect (text : List Char) : Reader Unit := do
  if !(← accept text) then failure

/-- Take the characters of a class as long as they come. -/
def takeWhile (p : Char → Bool) : Reader (List Char) := do
  let source ← get
  set (source.dropWhile p)
  return source.takeWhile p

/-- Repeat with as many rounds as there are characters left, and one more. -/
def rounds {α : Type} (reader : Nat → Reader α) : Reader α := do
  reader ((← get).length + 1)

/-- Skip blanks within the line. -/
def skipGap : Reader Unit := do
  let _ ← takeWhile isGap

/-- Take the end of a line. -/
def newline : Reader Unit := do
  if !(← accept ['\r', '\n']) then
    expect ['\n']

/-- Skip a comment if there is one. -/
def skipComment : Reader Unit := do
  if ← accept ['#'] then
    let _ ← takeWhile isPlain

/-- Take the rest of a line on which nothing but a comment may follow. -/
def lineEnd : Reader Unit := do
  skipGap
  skipComment
  if (← peek).isSome then
    newline

/-- Skip blanks, comments and line ends. -/
def skipLayoutFor : (fuel : Nat) → Reader Unit
  | 0 => return
  | fuel + 1 => do
      skipGap
      skipComment
      match ← peek with
      | some '\n' | some '\r' =>
          newline
          skipLayoutFor fuel
      | _ => return

/-- Skip blanks, comments and line ends. -/
def skipLayout : Reader Unit :=
  rounds skipLayoutFor

end Reader
end Toml
end SqlScript
