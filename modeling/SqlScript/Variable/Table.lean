import SqlScript.Variable

/-!
# Tables of variables

A table holds at most one variable per key, in ascending order of the keys, so that its order does
not depend on the order of the assignments.  `Table.get?_insert` and `Table.get?_erase` state the
table's laws: the last assignment of a name wins, and other names are untouched.
-/

namespace SqlScript
namespace Variable

/-- The entries with `entry` at its place, in lieu of one with the same key. -/
def insertInto (entry : Variable) : List Variable → List Variable
  | [] => [entry]
  | first :: rest =>
      if entry.key < first.key then entry :: first :: rest
      else if entry.key = first.key then entry :: rest
      else first :: insertInto entry rest

theorem key_insertInto {entry : Variable} {entries : List Variable} {other : Variable}
    (member : other ∈ insertInto entry entries) : other = entry ∨ other ∈ entries := by
  fun_induction insertInto entry entries with
  | case1 => simpa using member
  | case2 => simpa using member
  | case3 first rest _ _ =>
      rcases List.mem_cons.mp member with same | old
      · exact .inl same
      · exact .inr (List.mem_cons_of_mem first old)
  | case4 first rest _ _ ih =>
      rcases List.mem_cons.mp member with same | old
      · exact .inr (same ▸ List.mem_cons_self)
      · exact (ih old).imp_right (List.mem_cons_of_mem first)

theorem pairwise_insertInto (entry : Variable) {entries : List Variable}
    (ordered : entries.Pairwise fun left right => left.key < right.key) :
    (insertInto entry entries).Pairwise fun left right => left.key < right.key := by
  fun_induction insertInto entry entries with
  | case1 => simp
  | case2 first rest before =>
      refine List.pairwise_cons.mpr ⟨fun other member => ?_, ordered⟩
      rcases List.mem_cons.mp member with rfl | old
      · exact before
      · exact String.lt_trans before ((List.pairwise_cons.mp ordered).1 other old)
  | case3 first rest _ same =>
      have split := List.pairwise_cons.mp ordered
      exact List.pairwise_cons.mpr ⟨fun other old => same ▸ split.1 other old, split.2⟩
  | case4 first rest not_before different ih =>
      have split := List.pairwise_cons.mp ordered
      refine List.pairwise_cons.mpr ⟨fun other member => ?_, ih split.2⟩
      rcases key_insertInto member with rfl | old
      · exact Std.lt_of_le_of_ne (Std.not_lt.mp not_before) (Ne.symm different)
      · exact split.1 other old

/-- Variables in ascending order of their keys. -/
structure Table where
  entries : List Variable
  /-- Each key is greater than those before it. -/
  ordered : entries.Pairwise fun left right => left.key < right.key := by simp

namespace Table

/-- The table without variables. -/
def empty : Table where
  entries := []

instance : Inhabited Table :=
  ⟨empty⟩

/-- The value of a name in any case. -/
def get? (table : Table) (name : String) : Option String :=
  (table.entries.find? fun entry => entry.key == keyOf name).map Variable.value

/-- Whether a name is set. -/
def contains (table : Table) (name : String) : Bool :=
  (table.get? name).isSome

/-- The table after an assignment, which also decides the spelling of the name. -/
def insert (table : Table) (name value : String) : Table where
  entries := insertInto { name, value } table.entries
  ordered := pairwise_insertInto _ table.ordered

/-- The table without a name. -/
def erase (table : Table) (name : String) : Table where
  entries := table.entries.filter fun entry => entry.key != keyOf name
  ordered := table.ordered.filter _

/-- An assignment, which returns the value that it replaces. -/
def set (table : Table) (name value : String) : Option String × Table :=
  (table.get? name, table.insert name value)

/-- A removal, which returns the value that it removes. -/
def remove (table : Table) (name : String) : Option String × Table :=
  (table.get? name, table.erase name)

/-- Names and values in ascending order of the keys. -/
def toList (table : Table) : List (String × String) :=
  table.entries.map fun entry => (entry.name, entry.value)

/-- The number of variables. -/
def size (table : Table) : Nat :=
  table.entries.length

/-- Whether no variable is set. -/
def isEmpty (table : Table) : Bool :=
  table.entries.isEmpty

/-- The table after assignments made one after the other. -/
def ofList (assignments : List (String × String)) : Table :=
  assignments.foldl (fun table assignment => table.insert assignment.1 assignment.2) empty

/-- One line for each variable. -/
def listing (table : Table) : String :=
  String.intercalate "\n"
    (table.entries.map fun entry => entry.name ++ " = \"" ++ entry.value ++ "\"")

theorem get?_insert (table : Table) (name value other : String) :
    (table.insert name value).get? other =
      if keyOf name = keyOf other then some value else table.get? other := by
  simp only [get?, insert]
  fun_induction insertInto { name, value : Variable } table.entries with
  | case1 => by_cases same : keyOf name = keyOf other <;> simp [key, same]
  | case2 => by_cases same : keyOf name = keyOf other <;> simp [key, same]
  | case3 first rest _ keys =>
      have first_key : first.key = keyOf name := keys.symm
      by_cases same : keyOf name = keyOf other
      · simp [key, same]
      · rw [List.find?_cons_of_neg (by simpa [key] using same),
          List.find?_cons_of_neg (by simpa [first_key] using same), if_neg same]
  | case4 first rest _ keys ih =>
      by_cases found : first.key = keyOf other
      · have different : ¬ keyOf name = keyOf other := fun eq => keys (eq.trans found.symm)
        simp [found, different]
      · simpa [found] using ih

theorem get?_erase (table : Table) (name other : String) :
    (table.erase name).get? other =
      if keyOf name = keyOf other then none else table.get? other := by
  simp only [get?, erase]
  by_cases same : keyOf name = keyOf other
  · simp only [same, if_true, Option.map_eq_none_iff, List.find?_eq_none, List.mem_filter]
    simp
  · simp only [same, if_false]
    congr 1
    rw [List.find?_filter]
    congr 1
    funext entry
    by_cases found : entry.key = keyOf other
    · simp [found, Ne.symm same]
    · simp [found]

end Table
end Variable
end SqlScript
