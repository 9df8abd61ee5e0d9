import SqlScript.Text.Hidden

/-!
# Quoted texts in descriptions

A description shows a text in double quotes.  Quotes, backslashes and controls are escaped, and a
character that is not shown as it is stands as its code point in braces.
-/

namespace SqlScript
namespace Text

/-- A character by its code point. -/
def escapeCode (c : Char) : List Char :=
  ['\\', 'u', '\x7b'] ++ Nat.toDigits 16 c.toNat ++ ['\x7d']

/-- A character inside quotes. -/
def escape (c : Char) : List Char :=
  if c = '"' then ['\\', '"']
  else if c = '\\' then ['\\', '\\']
  else if c = '\t' then ['\\', 't']
  else if c = '\n' then ['\\', 'n']
  else if c = '\r' then ['\\', 'r']
  else if c = '\x00' then ['\\', '0']
  else if c.toNat < 0x20 || c.toNat = 0x7F || isHidden c then escapeCode c
  else [c]

/-- A text in quotes. -/
def quote (text : String) : String :=
  String.ofList ('"' :: text.toList.flatMap escape ++ ['"'])

/-- A text in quotes that may be missing. -/
def quoteOptional : Option String → String
  | none => "None"
  | some text => "Some(" ++ quote text ++ ")"

end Text
end SqlScript
