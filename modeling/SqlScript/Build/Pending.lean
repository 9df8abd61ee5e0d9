import SqlScript.Batch

/-!
# The pending batch

Text is gathered character by character.  Each character has an origin: its own position if it was
read from a file, the position of the reference if it came from the value of a variable.  The first
character of each line gives the line its entry in the line map.
-/

namespace SqlScript

/-- The text gathered for the batch that is not closed yet. -/
structure Pending where
  text : String := ""
  first : Option Position := none
  /-- Where the text behind the separator's line began. -/
  start : Option Position := none
  stop : Option Position := none
  lineMap : LineMap := .empty
  /-- Whether a line has ended and the next has no character yet. -/
  atLineStart : Bool := false
  /-- Whether the text is still on the line of the separator that opened the batch. -/
  onSeparatorLine : Bool := false
  deriving DecidableEq, Repr, Inhabited

namespace Pending

/-- The batch with one more character. -/
def push (pending : Pending) (origin : Position) (c : Char) : Pending :=
  let startsLine := pending.atLineStart || pending.lineMap.isEmpty
  { pending with
    text := pending.text.push c
    start := if pending.onSeparatorLine then pending.start else pending.start <|> some origin
    lineMap := if startsLine then pending.lineMap.push origin else pending.lineMap
    atLineStart := c == '\n'
    onSeparatorLine := pending.onSeparatorLine && c != '\n' }

/-- Characters read from a file at `position`. -/
def pushLiteral (position : Position) : List Char → Pending → Pending
  | [], pending => pending
  | c :: text, pending => pushLiteral (position.step c) text (pending.push position c)

/-- Characters of a value, all of which stem from `origin`. -/
def pushValue (origin : Position) (text : List Char) (pending : Pending) : Pending :=
  text.foldl (fun pending c => pending.push origin c) pending

/-- The batch with a contribution from `start` to `stop` noted; an empty one leaves no trace. -/
def contribute (pending : Pending) (start stop : Position) (text : List Char)
    (fill : List Char → Pending → Pending) : Pending :=
  if text.isEmpty then pending
  else
    { fill text pending with first := pending.first <|> some start, stop := some stop }

/-- The batch with text that stands at `start` in a file. -/
def appendLiteral (pending : Pending) (start stop : Position) (text : String) : Pending :=
  pending.contribute start stop text.toList (pushLiteral start)

/-- The batch with the value of a reference that stands at `start`. -/
def appendValue (pending : Pending) (start stop : Position) (value : String) : Pending :=
  pending.contribute start stop value.toList (pushValue start)

/-- The source region of the batch if it is closed at `separator`.  Text on the line of the opening
separator counts only where there is no other; a batch without any text has the empty region at
`separator`. -/
def region? (pending : Pending) (separator : Option Position) : Option Span :=
  (pending.start <|> pending.first <|> separator).map fun start =>
    { start, stop := pending.stop.getD start }

/-- The line map of the batch if it ends at `stop`; a last line without characters counts. -/
def lineMapTo (pending : Pending) (stop : Position) : LineMap :=
  if pending.atLineStart then pending.lineMap.push stop else pending.lineMap

end Pending
end SqlScript
