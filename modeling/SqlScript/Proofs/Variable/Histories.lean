import Mathlib.Data.Finmap
import SqlScript.Variable.Table

/-!
# Histories of variables

A table of variables is compared with a finite map whose keys are names in capitals.  Whatever is
assigned and removed, in whatever spelling and order, both return the same values and hold the same
variables, those of the latest assignments (`histories_agree`).  Sorting the entries of the map, in
whatever order they are enumerated, gives the list of the table.
-/

namespace SqlScript
namespace Variable

/-- A change of one variable. -/
inductive Change where
  | set (name value : String)
  | remove (name : String)
  deriving DecidableEq, Repr

namespace Change

/-- The key of the variable that is changed. -/
def key : Change → String
  | set name _ | remove name => keyOf name

/-- An assignment given as a pair. -/
def ofPair (assignment : String × String) : Change :=
  set assignment.1 assignment.2

theorem set_eq_iff {name value : String} {entry : Variable} :
    set name value = set entry.name entry.value ↔ entry = { name, value } := by
  rw [Change.set.injEq, Variable.mk.injEq, eq_comm, @eq_comm _ value]

/-- Changes made one after the other, with what each of them returns. -/
def run {σ : Type} (apply : Change → σ → Option String × σ) :
    List Change → σ → List (Option String) × σ
  | [], state => ([], state)
  | change :: rest, state =>
      let (returned, next) := apply change state
      let (others, last) := run apply rest next
      (returned :: others, last)

theorem run_append {σ : Type} (apply : Change → σ → Option String × σ) (front back : List Change)
    (state : σ) :
    (run apply (front ++ back) state).2 = (run apply back (run apply front state).2).2 := by
  induction front generalizing state with
  | nil => rfl
  | cons change front ih => exact ih _

/-- The history leaves the variable: its last change is the assignment of this spelling and
value. -/
def Leaves (history : List Change) (entry : Variable) : Prop :=
  ∃ before after, history = before ++ set entry.name entry.value :: after ∧
    ∀ change ∈ after, change.key ≠ entry.key

theorem not_leaves_nil (entry : Variable) : ¬Leaves [] entry := by
  rintro ⟨before, after, history_eq, -⟩
  simp at history_eq

/-- A history leaves what it leaves behind its first change, and what this change assigns for
good. -/
theorem leaves_cons {change : Change} {history : List Change} {entry : Variable} :
    Leaves (change :: history) entry ↔ Leaves history entry ∨
      change = set entry.name entry.value ∧ ∀ later ∈ history, later.key ≠ entry.key := by
  constructor
  · rintro ⟨before, after, history_eq, untouched⟩
    cases before with
    | nil =>
        obtain ⟨rfl, rfl⟩ := List.cons.inj history_eq
        exact .inr ⟨rfl, untouched⟩
    | cons first before =>
        obtain ⟨rfl, rfl⟩ := List.cons.inj history_eq
        exact .inl ⟨before, after, rfl, untouched⟩
  · rintro (⟨before, after, rfl, untouched⟩ | ⟨rfl, untouched⟩)
    · exact ⟨change :: before, after, rfl, untouched⟩
    · exact ⟨[], history, rfl, untouched⟩

end Change

theorem mem_insertInto {entry other : Variable} {entries : List Variable}
    (ordered : entries.Pairwise fun left right => left.key < right.key) :
    other ∈ insertInto entry entries ↔ other = entry ∨ other ∈ entries ∧ other.key ≠ entry.key := by
  have key_ne {first : Variable} {rest : List Variable}
      (behind : ∀ later ∈ rest, first.key < later.key) (le : entry.key ≤ first.key)
      (member : other ∈ rest) : other.key ≠ entry.key :=
    Ne.symm (Std.ne_of_lt (Std.lt_of_le_of_lt le (behind other member)))
  fun_induction insertInto entry entries with
  | case1 => simp
  | case2 first rest before =>
      have split := List.pairwise_cons.mp ordered
      have first_ne : first.key ≠ entry.key := Ne.symm (Std.ne_of_lt before)
      have rest_ne := key_ne split.1 (Std.le_of_lt before)
      simp only [List.mem_cons]
      grind
  | case3 first rest _ same =>
      have split := List.pairwise_cons.mp ordered
      have rest_ne := key_ne split.1 (Std.le_of_eq same)
      simp only [List.mem_cons]
      grind
  | case4 first rest _ different ih =>
      have split := List.pairwise_cons.mp ordered
      simp only [List.mem_cons, ih split.2]
      grind

namespace Table

/-- A change of a table. -/
def apply : Change → Table → Option String × Table
  | .set name value, table => table.set name value
  | .remove name, table => table.remove name

theorem nodup_keys (table : Table) : (table.entries.map key).Nodup :=
  List.pairwise_map.mpr (table.ordered.imp Std.ne_of_lt)

/-- A key belongs to at most one variable. -/
theorem eq_of_key_eq {table : Table} {left right : Variable} (left_mem : left ∈ table.entries)
    (right_mem : right ∈ table.entries) (same : left.key = right.key) : left = right :=
  List.inj_on_of_nodup_map table.nodup_keys left_mem right_mem same

theorem find?_eq_some_iff {table : Table} {key : String} {entry : Variable} :
    (table.entries.find? fun entry => entry.key == key) = some entry ↔
      entry ∈ table.entries ∧ entry.key = key := by
  constructor
  · intro found
    exact ⟨List.mem_of_find?_eq_some found, by simpa using List.find?_some found⟩
  · rintro ⟨member, rfl⟩
    cases found : table.entries.find? fun other => other.key == entry.key with
    | none => simpa using List.find?_eq_none.mp found entry member
    | some other =>
        have other_key : other.key = entry.key := by simpa using List.find?_some found
        rw [eq_of_key_eq (List.mem_of_find?_eq_some found) member other_key]

/-- A name is looked up among the variables, in any case. -/
theorem get?_eq_some_iff {table : Table} {name value : String} :
    table.get? name = some value ↔
      ∃ entry ∈ table.entries, entry.key = keyOf name ∧ entry.value = value := by
  simp only [get?, Option.map_eq_some_iff, find?_eq_some_iff, and_assoc]

/-- What the variables are after a change. -/
theorem mem_apply {change : Change} {table : Table} {entry : Variable} :
    entry ∈ (table.apply change).2.entries ↔
      change = .set entry.name entry.value ∨ entry ∈ table.entries ∧ change.key ≠ entry.key := by
  cases change with
  | set name value =>
      change entry ∈ insertInto { name, value } table.entries ↔ _
      rw [mem_insertInto table.ordered, Change.set_eq_iff]
      exact or_congr_right (and_congr_right fun _ => ne_comm)
  | remove name =>
      change entry ∈ table.entries.filter _ ↔ _
      simp only [List.mem_filter, bne_iff_ne, reduceCtorEq, false_or, Change.key]
      exact and_congr_right fun _ => ne_comm

/-- What the variables are after a row of changes. -/
theorem mem_run {changes : List Change} {table : Table} {entry : Variable} :
    entry ∈ (Change.run apply changes table).2.entries ↔
      Change.Leaves changes entry ∨
        entry ∈ table.entries ∧ ∀ change ∈ changes, change.key ≠ entry.key := by
  induction changes generalizing table with
  | nil => simp [Change.run, Change.not_leaves_nil]
  | cons change changes ih =>
      rw [Change.run, ih, mem_apply, Change.leaves_cons]
      simp only [List.forall_mem_cons]
      tauto

/-- Variables that are sorted by their keys stand in the order of the table. -/
theorem mergeSort_eq (table : Table) {entries : List Variable}
    (perm : entries.Perm table.entries) :
    (entries.mergeSort fun left right => left.key ≤ right.key) = table.entries := by
  have sorted : (entries.mergeSort fun left right => left.key ≤ right.key).Pairwise
      fun left right => decide (left.key ≤ right.key) = true :=
    List.pairwise_mergeSort (fun left middle right => by simpa using String.le_trans)
      (fun left right => by simpa using String.le_total left.key right.key) entries
  have perm_sorted :=
    (List.mergeSort_perm entries fun left right => left.key ≤ right.key).trans perm
  simp only [decide_eq_true_eq] at sorted
  refine perm_sorted.eq_of_pairwise ?_ sorted (table.ordered.imp Std.le_of_lt)
  intro left right left_mem right_mem le ge
  exact eq_of_key_eq (perm_sorted.subset left_mem) right_mem (String.le_antisymm le ge)

/-- A table made from assignments is what they make of the table without variables. -/
theorem ofList_eq_run (assignments : List (String × String)) :
    ofList assignments = (Change.run apply (assignments.map Change.ofPair) empty).2 := by
  unfold ofList
  generalize empty = table
  induction assignments generalizing table with
  | nil => rfl
  | cons assignment assignments ih => exact ih _

end Table

/-- Variables in a finite map, whose keys are names in capitals. -/
abbrev Store :=
  Finmap fun _ : String => Variable

namespace Store

/-- A change of a finite map. -/
def apply : Change → Store → Option String × Store
  | .set name value, store =>
      ((store.lookup (keyOf name)).map Variable.value, store.insert (keyOf name) { name, value })
  | .remove name, store =>
      ((store.lookup (keyOf name)).map Variable.value, store.erase (keyOf name))

/-- The map after assignments made one after the other. -/
def ofList (assignments : List (String × String)) : Store :=
  (Change.run apply (assignments.map Change.ofPair) ∅).2

/-- Names and values of the entries, which are enumerated in any order, sorted by key. -/
def sorted (order : List (Σ _ : String, Variable)) : List (String × String) :=
  ((order.map Sigma.snd).mergeSort fun left right => left.key ≤ right.key).map fun entry =>
    (entry.name, entry.value)

/-- One line for each entry. -/
def listing (order : List (Σ _ : String, Variable)) : String :=
  String.intercalate "\n" ((sorted order).map fun (name, value) => name ++ " = \"" ++ value ++ "\"")

/-- The map holds the variables of the table, each under its own key. -/
def Agrees (store : Store) (table : Table) : Prop :=
  ∀ key entry, store.lookup key = some entry ↔ entry ∈ table.entries ∧ entry.key = key

variable {store : Store} {table : Table}

theorem agrees_empty : Agrees ∅ Table.empty := by
  intro key entry
  simp [Table.empty]

theorem Agrees.lookup_eq (agrees : store.Agrees table) (name : String) :
    (store.lookup (keyOf name)).map Variable.value = table.get? name := by
  ext value
  simp only [Option.map_eq_some_iff, agrees _ _, Table.get?_eq_some_iff, and_assoc]

/-- What the map holds after a change. -/
theorem lookup_apply (change : Change) (store : Store) (key : String) (entry : Variable) :
    (store.apply change).2.lookup key = some entry ↔
      change = .set entry.name entry.value ∧ change.key = key ∨
        store.lookup key = some entry ∧ change.key ≠ key := by
  cases change with
  | set name value =>
      by_cases same : keyOf name = key
      · subst same
        rw [Change.set_eq_iff]
        simp [apply, Change.key, Finmap.lookup_insert, eq_comm]
      · simp [apply, Change.key, same, Finmap.lookup_insert_of_ne store (Ne.symm same)]
  | remove name =>
      by_cases same : keyOf name = key
      · subst same
        simp [apply, Change.key]
      · simp [apply, Change.key, same, Finmap.lookup_erase_ne (Ne.symm same)]

/-- One change keeps the map and the table in agreement and has the same answer from both. -/
theorem Agrees.apply (agrees : store.Agrees table) (change : Change) :
    (store.apply change).1 = (table.apply change).1 ∧
      (store.apply change).2.Agrees (table.apply change).2 := by
  refine ⟨?_, fun key entry => ?_⟩
  · cases change with
    | set name | remove name => exact agrees.lookup_eq name
  · have key_eq : change = .set entry.name entry.value → change.key = entry.key := by
      rintro rfl
      rfl
    rw [lookup_apply, agrees, Table.mem_apply]
    grind

theorem Agrees.run (agrees : store.Agrees table) (changes : List Change) :
    (Change.run Store.apply changes store).1 = (Change.run Table.apply changes table).1 ∧
      (Change.run Store.apply changes store).2.Agrees (Change.run Table.apply changes table).2 := by
  induction changes generalizing store table with
  | nil => exact ⟨rfl, agrees⟩
  | cons change changes ih =>
      obtain ⟨returned_eq, next⟩ := agrees.apply change
      obtain ⟨others_eq, last⟩ := ih next
      exact ⟨congrArg₂ List.cons returned_eq others_eq, last⟩

theorem agrees_ofList (assignments : List (String × String)) :
    (ofList assignments).Agrees (Table.ofList assignments) := by
  rw [Table.ofList_eq_run]
  exact (agrees_empty.run (assignments.map Change.ofPair)).2

theorem Agrees.mem_iff (agrees : store.Agrees table) (name : String) :
    keyOf name ∈ store ↔ table.contains name = true := by
  rw [← Finmap.lookup_isSome, Table.contains, ← agrees.lookup_eq, Option.isSome_map]

theorem Agrees.card_eq (agrees : store.Agrees table) : store.keys.card = table.size := by
  have keys_eq : store.keys = (table.entries.map key).toFinset := by
    ext key
    simp [Finmap.mem_keys, Finmap.mem_iff, agrees key, eq_comm]
  rw [keys_eq, List.toFinset_card_of_nodup table.nodup_keys, List.length_map, Table.size]

/-- The entries of the map are the variables of the table, however they are enumerated. -/
theorem Agrees.perm (agrees : store.Agrees table) {order : List (Σ _ : String, Variable)}
    (enumerates : ↑order = store.entries) : (order.map Sigma.snd).Perm table.entries := by
  have mem_order (item : Σ _ : String, Variable) :
      item ∈ order ↔ item.2 ∈ table.entries ∧ item.2.key = item.1 := by
    rw [← agrees, Finmap.lookup_eq_some_iff, ← enumerates, Multiset.mem_coe]
  have order_nodup : order.Nodup := by
    rw [← Multiset.coe_nodup, enumerates]
    exact store.nodup_entries
  have variables_nodup : (order.map Sigma.snd).Nodup := by
    refine order_nodup.map_on fun left left_mem right right_mem same => ?_
    have left_key := ((mem_order left).mp left_mem).2
    have right_key := ((mem_order right).mp right_mem).2
    exact Sigma.ext (left_key.symm.trans ((congrArg key same).trans right_key)) (heq_of_eq same)
  refine (List.perm_ext_iff_of_nodup variables_nodup table.nodup_keys.of_map).mpr fun entry => ?_
  simp [mem_order]

theorem Agrees.sorted_eq (agrees : store.Agrees table) {order : List (Σ _ : String, Variable)}
    (enumerates : ↑order = store.entries) : sorted order = table.toList := by
  rw [sorted, table.mergeSort_eq (agrees.perm enumerates), Table.toList]

theorem Agrees.listing_eq (agrees : store.Agrees table) {order : List (Σ _ : String, Variable)}
    (enumerates : ↑order = store.entries) : listing order = table.listing := by
  rw [listing, agrees.sorted_eq enumerates, Table.toList, List.map_map, Table.listing]
  rfl

end Store

namespace Table

theorem eq_of_mem_iff {left right : Table}
    (same : ∀ entry, entry ∈ left.entries ↔ entry ∈ right.entries) : left = right := by
  have perm : left.entries.Perm right.entries :=
    (List.perm_ext_iff_of_nodup left.nodup_keys.of_map right.nodup_keys.of_map).mpr same
  have entries_eq : left.entries = right.entries := by
    rw [← left.mergeSort_eq (.refl _), right.mergeSort_eq perm]
  cases left
  cases right
  cases entries_eq
  rfl

theorem mem_toList {table : Table} {name value : String} :
    (name, value) ∈ table.toList ↔ { name, value } ∈ table.entries := by
  constructor
  · intro member
    obtain ⟨entry, entry_mem, entry_eq⟩ := List.mem_map.mp member
    cases entry_eq
    exact entry_mem
  · exact fun member => List.mem_map.mpr ⟨_, member, rfl⟩

theorem pairwise_toList (table : Table) :
    table.toList.Pairwise fun left right => keyOf left.1 < keyOf right.1 :=
  List.pairwise_map.mpr table.ordered

/-- Behind a history that begins with assignments stand the variables that it leaves. -/
theorem mem_run_ofList (assignments : List (String × String)) (changes : List Change)
    (entry : Variable) :
    entry ∈ (Change.run apply changes (ofList assignments)).2.entries ↔
      Change.Leaves (assignments.map Change.ofPair ++ changes) entry := by
  rw [ofList_eq_run, ← Change.run_append, mem_run]
  simp [empty]

end Table

/-- A history of assignments and removals, which may begin with a row of assignments, has the same
answers from a table and from a finite map whose keys are names in capitals.  The table holds what
the map holds, and lists each variable that the history leaves once, in ascending order of the keys.
The list is the same for all histories that leave the same variables, and it is what sorting the
entries of the map gives, in whatever order they are enumerated. -/
theorem histories_agree (assignments : List (String × String)) (changes : List Change) :
    let (answers, table) := Change.run Table.apply changes (Table.ofList assignments)
    let (answers', store) := Change.run Store.apply changes (Store.ofList assignments)
    answers = answers' ∧
      (∀ name, table.get? name = (store.lookup (keyOf name)).map Variable.value) ∧
      (∀ name, table.contains name = true ↔ keyOf name ∈ store) ∧
      table.size = store.keys.card ∧
      (∀ name value, (name, value) ∈ table.toList ↔
        Change.Leaves (assignments.map Change.ofPair ++ changes) { name, value }) ∧
      (table.toList.Pairwise fun left right => keyOf left.1 < keyOf right.1) ∧
      (∀ order : List (Σ _ : String, Variable), ↑order = store.entries →
        Store.sorted order = table.toList ∧ Store.listing order = table.listing) ∧
      ∀ assignments' changes',
        (∀ entry, Change.Leaves (assignments'.map Change.ofPair ++ changes') entry ↔
          Change.Leaves (assignments.map Change.ofPair ++ changes) entry) →
        let other := (Change.run Table.apply changes' (Table.ofList assignments')).2
        other.toList = table.toList ∧ other.listing = table.listing := by
  obtain ⟨answers_eq, agrees⟩ := (Store.agrees_ofList assignments).run changes
  refine ⟨answers_eq.symm, fun name => (agrees.lookup_eq name).symm,
    fun name => (agrees.mem_iff name).symm, agrees.card_eq.symm, fun name value => ?_,
    Table.pairwise_toList _,
    fun order enumerates => ⟨agrees.sorted_eq enumerates, agrees.listing_eq enumerates⟩, ?_⟩
  · rw [Table.mem_toList, Table.mem_run_ofList]
  · intro assignments' changes' same other
    have table_eq : other = (Change.run Table.apply changes (Table.ofList assignments)).2 :=
      Table.eq_of_mem_iff fun entry => by
        rw [Table.mem_run_ofList, Table.mem_run_ofList, same]
    rw [table_eq]
    exact ⟨rfl, rfl⟩

/-- Two variables are assigned in different orders and spellings, and enumerated in an order of
their own. -/
theorem histories_agree_on_spellings :
    let assignments := [("zeta", "1"), ("alpha", "2")]
    let changes := [Change.set "Alpha" "first", .remove "Beta"]
    let changes' := [Change.set "Alpha" "first", .set "ZETA" "2", .set "zeta" "1"]
    let order : List (Σ _ : String, Variable) :=
      [⟨"ZETA", { name := "zeta", value := "1" }⟩, ⟨"ALPHA", { name := "Alpha", value := "first" }⟩]
    let table := (Change.run Table.apply changes (Table.ofList assignments)).2
    let store := (Change.run Store.apply changes (Store.ofList assignments)).2
    let other := (Change.run Table.apply changes' (Table.ofList [])).2
    ↑order = store.entries ∧ Store.sorted order = table.toList ∧
      (∀ entry, Change.Leaves changes' entry ↔
        Change.Leaves (assignments.map Change.ofPair ++ changes) entry) ∧
      other.listing = table.listing := by
  intro assignments changes changes' order table store other
  have enumerates : ↑order = store.entries := by decide +kernel
  have same_entries : other.entries = table.entries := by decide +kernel
  have same (entry : Variable) : Change.Leaves changes' entry ↔
      Change.Leaves (assignments.map Change.ofPair ++ changes) entry := by
    rw [← Table.mem_run_ofList, ← List.nil_append changes', ← List.map_nil, ← Table.mem_run_ofList]
    exact same_entries ▸ Iff.rfl
  obtain ⟨-, -, -, -, -, -, sorted, unique⟩ := histories_agree assignments changes
  exact ⟨enumerates, (sorted order enumerates).1, same, (unique [] changes' same).2⟩

end Variable
end SqlScript
