import SqlScript.FileTree

/-!
# Places that paths lead to

A path leads through the names between its slashes, from the root or from the directory in which it
is written; `.` stays in a directory and `..` goes back.  The row of names that is left says where
the path leads, so that a joined path leads where its end leads from where its front leads, and the
path that is written for a place leads there and nowhere else.
-/

namespace SqlScript
namespace Path

/-- The names between the slashes of a path. -/
def components (path : List Char) : List String :=
  ((path.splitOn '/').filter (!·.isEmpty)).map String.ofList

/-- A place after one more name. -/
def enter (place : List String) (name : String) : List String :=
  if name = "." then place else if name = ".." then place.dropLast else place ++ [name]

/-- The place that a path leads to if it is written in a directory. -/
def placeFrom (directory : List String) (path : String) : List String :=
  (components path.toList).foldl enter (if isAbsolute path then [] else directory)

/-- A name that an entry of a directory can have. -/
structure IsName (name : String) : Prop where
  not_empty : name ≠ ""
  not_here : name ≠ "."
  not_back : name ≠ ".."
  unslashed : '/' ∉ name.toList

instance : DecidablePred IsName := fun name =>
  decidable_of_iff (name ≠ "" ∧ name ≠ "." ∧ name ≠ ".." ∧ '/' ∉ name.toList)
    ⟨fun ⟨not_empty, not_here, not_back, unslashed⟩ => ⟨not_empty, not_here, not_back, unslashed⟩,
      fun ⟨not_empty, not_here, not_back, unslashed⟩ => ⟨not_empty, not_here, not_back, unslashed⟩⟩

/-- A row of names of entries, each in the directory before it. -/
def IsPlace (place : List String) : Prop :=
  ∀ name ∈ place, IsName name

instance : DecidablePred IsPlace := fun place =>
  inferInstanceAs (Decidable (∀ name ∈ place, IsName name))

section

variable {directory place : List String} {name path : String}

theorem splitSlashes_eq (path : List Char) : splitSlashes path = path.splitOn '/' := by
  fun_induction splitSlashes path with
  | case1 => exact (List.splitOn_nil '/').symm
  | case2 c rest none_left ih =>
      exact absurd (ih.symm.trans none_left) (List.splitOn_ne_nil '/' rest)
  | case3 rest part parts parts_eq ih =>
      rw [List.splitOn_cons_eq_if_modifyHead, if_pos (beq_self_eq_true '/'), ← ih, parts_eq]
  | case4 c rest part parts parts_eq not_slash ih =>
      rw [List.splitOn_cons_eq_if_modifyHead, if_neg (by simpa using not_slash), ← ih, parts_eq]
      rfl

theorem unslashed_of_mem_splitSlashes {part path : List Char} (member : part ∈ splitSlashes path) :
    '/' ∉ part := by
  fun_induction splitSlashes path generalizing part with
  | case1 =>
      cases List.mem_singleton.mp member
      exact List.not_mem_nil
  | case2 c rest none_left ih =>
      exact absurd ((splitSlashes_eq rest).symm.trans none_left) (List.splitOn_ne_nil '/' rest)
  | case3 rest first parts parts_eq ih =>
      rcases List.mem_cons.mp member with rfl | later
      · exact List.not_mem_nil
      · exact ih (parts_eq ▸ later)
  | case4 c rest first parts parts_eq not_slash ih =>
      rcases List.mem_cons.mp member with rfl | later
      · have behind : '/' ∉ first := ih (parts_eq ▸ List.mem_cons_self)
        simp [behind, Ne.symm not_slash]
      · exact ih (parts_eq ▸ List.mem_cons_of_mem first later)

theorem components_nil : components [] = [] := by
  simp [components]

/-- A slash parts the names before it from those behind it. -/
theorem components_append (front back : List Char) :
    components (front ++ '/' :: back) = components front ++ components back := by
  rw [components, List.splitOn_append_cons_self, List.filter_append, List.map_append]
  rfl

theorem mem_components {path : List Char} (member : name ∈ components path) :
    name ≠ "" ∧ '/' ∉ name.toList := by
  obtain ⟨part, kept, rfl⟩ := List.mem_map.mp member
  obtain ⟨within, filled⟩ := List.mem_filter.mp kept
  rw [← splitSlashes_eq] at within
  refine ⟨?_, ?_⟩
  · simpa using filled
  · rw [String.toList_ofList]
    exact unslashed_of_mem_splitSlashes within

/-- A slash at the end of a path adds the name of the directory itself. -/
theorem names_eq (path : String) :
    names path =
      components path.toList ++ if path.toList.getLast? = some '/' then ["."] else [] := by
  rw [names, components, splitSlashes_eq, List.map_append]
  split <;> rfl

theorem enter_here (place : List String) : enter place "." = place :=
  if_pos rfl

theorem foldl_enter_names (place : List String) (path : String) :
    (names path).foldl enter place = (components path.toList).foldl enter place := by
  rw [names_eq, List.foldl_append]
  split
  · exact enter_here _
  · rfl

theorem IsPlace.enter (is_place : IsPlace place) (not_empty : name ≠ "")
    (unslashed : '/' ∉ name.toList) : IsPlace (enter place name) := by
  unfold Path.enter
  split
  · exact is_place
  rename_i not_here
  split
  · exact fun other member => is_place other (List.dropLast_subset place member)
  rename_i not_back
  intro other member
  rcases List.mem_append.mp member with within | last
  · exact is_place other within
  · cases List.mem_singleton.mp last
    exact ⟨not_empty, not_here, not_back, unslashed⟩

theorem IsPlace.foldl_enter {names : List String}
    (each : ∀ name ∈ names, name ≠ "" ∧ '/' ∉ name.toList) (is_place : IsPlace place) :
    IsPlace (names.foldl Path.enter place) := by
  induction names generalizing place with
  | nil => exact is_place
  | cons name rest ih =>
      obtain ⟨⟨not_empty, unslashed⟩, others⟩ := List.forall_mem_cons.mp each
      exact ih others (is_place.enter not_empty unslashed)

theorem IsPlace.placeFrom (is_place : IsPlace directory) (path : String) :
    IsPlace (placeFrom directory path) := by
  refine IsPlace.foldl_enter (fun _ => mem_components) ?_
  split
  · exact fun _ member => absurd member List.not_mem_nil
  · exact is_place

theorem isAbsolute_append (filled : path ≠ "") (back : String) :
    isAbsolute (path ++ back) = isAbsolute path := by
  obtain ⟨c, rest, path_eq⟩ : ∃ c rest, path.toList = c :: rest :=
    List.exists_cons_of_ne_nil (by simpa using filled)
  simp [isAbsolute, path_eq]

/-- A joined path leads where its end leads from where its front leads. -/
theorem placeFrom_join (working : List String) (front path : String) :
    placeFrom working (join front path) = placeFrom (placeFrom working front) path := by
  by_cases absolute : isAbsolute path = true
  · simp only [join, if_pos absolute, placeFrom]
  by_cases no_front : front = ""
  · subst no_front
    simp [join, placeFrom, components_nil, isAbsolute]
  · have names_eq : components (join front path).toList =
        components front.toList ++ components path.toList := by
      by_cases slash : front.toList.getLast? = some '/'
      · obtain ⟨start, front_eq⟩ := List.getLast?_eq_some_iff.mp slash
        simp [join, absolute, front_eq, components_append, components_nil]
      · simp [join, absolute, no_front, slash, ← components_append]
    have absolute_eq : isAbsolute (join front path) = isAbsolute front := by
      unfold join
      rw [if_neg absolute]
      split
      · exact isAbsolute_append no_front path
      · rw [String.append_assoc]
        exact isAbsolute_append no_front _
    rw [placeFrom, names_eq, absolute_eq, List.foldl_append, placeFrom, if_neg absolute, placeFrom]

/-- The names of a written place are its own. -/
theorem components_pathOf (is_place : IsPlace place) :
    components (FileTree.pathOf place).toList = place := by
  have path_eq : (FileTree.pathOf place).toList =
      [] ++ '/' :: ['/'].intercalate (place.map String.toList) := by
    simp [FileTree.pathOf]
  rw [path_eq, components_append, components_nil, List.nil_append]
  cases place with
  | nil => exact components_nil
  | cons name rest =>
      have unslashed : ∀ part ∈ (name :: rest).map String.toList, '/' ∉ part :=
        List.forall_mem_map.mpr fun other member => (is_place other member).unslashed
      have filled : ∀ part ∈ (name :: rest).map String.toList, (!part.isEmpty) = true :=
        List.forall_mem_map.mpr fun other member => by simpa using (is_place other member).not_empty
      rw [components, List.splitOn_intercalate '/' unslashed (List.cons_ne_nil _ _),
        List.filter_eq_self.mpr filled, List.map_map]
      exact List.map_id'' (fun other => String.ofList_toList) _

theorem foldl_enter_eq_append (front : List String) (is_place : IsPlace place) :
    place.foldl enter front = front ++ place := by
  induction place generalizing front with
  | nil => exact (List.append_nil front).symm
  | cons name rest ih =>
      obtain ⟨is_name, others⟩ := List.forall_mem_cons.mp is_place
      rw [List.foldl_cons, enter, if_neg is_name.not_here, if_neg is_name.not_back, ih _ others,
        List.append_assoc]
      rfl

/-- The path that is written for a place leads there from everywhere. -/
theorem placeFrom_pathOf (directory : List String) (is_place : IsPlace place) :
    placeFrom directory (FileTree.pathOf place) = place := by
  have absolute : isAbsolute (FileTree.pathOf place) = true := by
    simp [isAbsolute, FileTree.pathOf]
  rw [placeFrom, components_pathOf is_place, if_pos absolute, foldl_enter_eq_append [] is_place,
    List.nil_append]

theorem pathOf_inj {other : List String} (is_place : IsPlace place) (is_other : IsPlace other) :
    FileTree.pathOf place = FileTree.pathOf other ↔ place = other := by
  constructor
  · intro same
    rw [← components_pathOf is_place, same, components_pathOf is_other]
  · exact congrArg FileTree.pathOf

/-- A path is not cut behind a name. -/
theorem trimReversed_name (is_name : IsName name) (behind : List Char) :
    trimReversed (name.toList.reverse ++ behind) = name.toList.reverse ++ behind := by
  have unslashed : '/' ∉ name.toList.reverse := by simpa using is_name.unslashed
  have not_empty : name.toList.reverse ≠ [] := by simpa using is_name.not_empty
  have not_here : name.toList.reverse ≠ ['.'] := by
    intro reversed
    refine is_name.not_here (String.toList_inj.mp ?_)
    simpa using congrArg List.reverse reversed
  rcases reversed : name.toList.reverse with _ | ⟨c, _ | ⟨d, rest⟩⟩
  · exact absurd reversed not_empty
  · rw [reversed] at unslashed not_here
    rw [trimReversed]
    all_goals grind
  · rw [reversed] at unslashed
    rw [trimReversed]
    all_goals grind

/-- The path to an entry is cut down to it from a slash behind it. -/
theorem trimReversed_slash {reversed : List Char} (filled : reversed ≠ []) :
    trimReversed ('/' :: reversed) = trimReversed reversed := by
  cases reversed with
  | nil => contradiction
  | cons c rest => rw [trimReversed]; simp

theorem pathOf_eq (filled : place ≠ []) :
    FileTree.pathOf place = String.ofList (place.flatMap fun name => '/' :: name.toList) := by
  induction place with
  | nil => contradiction
  | cons name rest ih =>
      cases rest with
      | nil => simp [FileTree.pathOf]
      | cons next others =>
          have first : FileTree.pathOf (name :: next :: others) =
              "/" ++ name ++ FileTree.pathOf (next :: others) := by
            simp [FileTree.pathOf, String.append_assoc]
          rw [first, ih (List.cons_ne_nil next others), ← String.toList_inj]
          simp

theorem parent?_of_name (is_name : IsName name) (front : List Char) :
    parent? (String.ofList (front ++ '/' :: name.toList)) =
      some (String.ofList (trimReversed ('/' :: front.reverse)).reverse) := by
  have reversed_eq : (front ++ '/' :: name.toList).reverse =
      name.toList.reverse ++ '/' :: front.reverse := by simp
  have kept : trimReversed (front ++ '/' :: name.toList).reverse =
      name.toList.reverse ++ '/' :: front.reverse := by
    rw [reversed_eq]
    exact trimReversed_name is_name _
  have behind : (name.toList.reverse ++ '/' :: front.reverse).dropWhile (· != '/') =
      '/' :: front.reverse := by
    have unslashed : ∀ c ∈ name.toList.reverse, (c != '/') = true := by
      intro c member
      have within : c ∈ name.toList := List.mem_reverse.mp member
      exact bne_iff_ne.mpr fun slash => is_name.unslashed (slash ▸ within)
    rw [List.dropWhile_append_of_pos unslashed]
    rfl
  rw [parent?, String.toList_ofList, kept]
  split
  · rename_i none_left
    simp at none_left
  · rename_i root
    have short : name.toList.length + (front.length + 1) = 1 := by
      simpa using congrArg List.length root
    have no_name : name.toList = [] := List.length_eq_zero_iff.mp (by omega)
    exact absurd (String.toList_eq_nil_iff.mp no_name) is_name.not_empty
  · rw [behind]

/-- The parent of the path to an entry is the path to its directory. -/
theorem parent?_pathOf (is_place : IsPlace (place ++ [name])) :
    parent? (FileTree.pathOf (place ++ [name])) = some (FileTree.pathOf place) := by
  have is_name : IsName name := is_place name (List.mem_append_right place List.mem_cons_self)
  rw [pathOf_eq (List.concat_ne_nil name place), List.flatMap_append, List.flatMap_singleton,
    parent?_of_name is_name]
  rcases List.eq_nil_or_concat place with rfl | ⟨outer, last, rfl⟩
  · rfl
  · have is_last : IsName last := is_place last (by simp)
    have front_eq : ((outer.concat last).flatMap fun name => '/' :: name.toList).reverse =
        last.toList.reverse ++ '/' :: (outer.flatMap fun name => '/' :: name.toList).reverse := by
      simp [List.concat_eq_append]
    have filled : last.toList.reverse ++
        '/' :: (outer.flatMap fun name => '/' :: name.toList).reverse ≠ [] := by
      simp
    rw [front_eq, trimReversed_slash filled, trimReversed_name is_last, ← front_eq,
      List.reverse_reverse, ← pathOf_eq (by simp)]

end

end Path
end SqlScript
