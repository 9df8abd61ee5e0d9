import SqlScript.Position

/-!
# Line maps

A line map records for each line of a batch where that line begins in the source, so that a line
number reported by the server can be shown in terms of the script.
-/

namespace SqlScript

/-- Source positions of the lines of a text, in order. -/
structure LineMap where
  starts : Array Position := #[]
  deriving DecidableEq, Repr, Inhabited

namespace LineMap

/-- The map of a text without lines. -/
def empty : LineMap where
  starts := #[]

/-- The map with one more line. -/
def push (map : LineMap) (start : Position) : LineMap where
  starts := map.starts.push start

/-- Where a line begins; lines are counted from one. -/
def get? (map : LineMap) : (line : Nat) → Option Position
  | 0 => none
  | index + 1 => map.starts[index]?

/-- The number of lines. -/
def size (map : LineMap) : Nat :=
  map.starts.size

/-- Whether there are no lines. -/
def isEmpty (map : LineMap) : Bool :=
  map.starts.isEmpty

/-- Where the lines begin, in order. -/
def toList (map : LineMap) : List Position :=
  map.starts.toList

@[simp]
theorem toList_empty : empty.toList = [] :=
  rfl

@[simp]
theorem toList_push (map : LineMap) (start : Position) :
    (map.push start).toList = map.toList ++ [start] := by
  simp [push, toList]

@[simp]
theorem get?_zero (map : LineMap) : map.get? 0 = none :=
  rfl

theorem get?_succ (map : LineMap) (index : Nat) : map.get? (index + 1) = map.toList[index]? := by
  simp [get?, toList]

theorem size_eq_length (map : LineMap) : map.size = map.toList.length := by
  simp [size, toList]

end LineMap
end SqlScript
