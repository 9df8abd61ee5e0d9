import SqlScript.Command

/-!
# Tokens

A token is a classified stretch of source text with its coordinates.  Literal tokens are passed on
to the batch as they stand; the others direct how batches are put together.
-/

namespace SqlScript

/-- The class of a token. -/
inductive TokenKind where
  /-- Ordinary text, at most through the end of its line. -/
  | text
  | quotedString
  /-- A name in brackets or double quotes. -/
  | quotedIdentifier
  | lineComment
  | blockComment
  /-- A line that closes a batch to be run `repeatCount` times. -/
  | separator (repeatCount : Nat)
  | command (command : Command)
  | reference (name : String)
  deriving DecidableEq, Repr, Inhabited

namespace TokenKind

/-- Whether the text of such a token belongs to the batch as it stands. -/
def isLiteral : TokenKind → Bool
  | text | quotedString | quotedIdentifier | lineComment | blockComment => true
  | separator _ | command _ | reference _ => false

/-- Whether such a token closes a batch. -/
def isSeparator : TokenKind → Bool
  | separator _ => true
  | _ => false

end TokenKind

/-- A classified stretch of source text. -/
structure Token where
  kind : TokenKind
  text : String
  start : Position
  /-- The position after its last character. -/
  stop : Position
  deriving DecidableEq, Repr, Inhabited

end SqlScript
