/-!
# Row counts

Each statement of a batch reports how many rows it affected, as long as somebody listens.
-/

namespace SqlScript
namespace Server

/-- The message about a number of rows. -/
def rowsAffectedMessage (count : Nat) : String :=
  if count = 1 then "(1 row affected)" else "(" ++ toString count ++ " rows affected)"

/-- The messages that are delivered, given how many more are received; `none` stands for any
number. -/
def reportRowCounts (room : Option Nat) (counts : List Nat) : List String :=
  let received :=
    match room with
    | none => counts
    | some room => counts.take room
  received.map rowsAffectedMessage

end Server
end SqlScript
