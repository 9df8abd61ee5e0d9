import SqlScript.Include.Files
import SqlScript.Proofs.Build.Nesting
import SqlScript.Proofs.Include.Places

/-!
# Identity of included files

A file of a tree is included from the place that its path leads to, seen from the directory of the
file that asks for it, however many includes led there.  Its identity is the path that is written
for this place: two includes get the same identity exactly if they lead to the same place, and so a
file is refused while it is being expanded, whatever the spelling of its path.
-/

namespace SqlScript
namespace FileTree

/-- The text of the regular file at a place. -/
def textAt? (tree : FileTree) (place : List String) : Option String :=
  match tree.find? place with
  | some (file content) => String.fromUTF8? content
  | _ => none

section

variable {tree : FileTree} {working place next : List String} {name path text : String}

theorem enter_of_step (stepped : tree.step place name = .ok next) :
    next = Path.enter place name := by
  unfold step at stepped
  split at stepped
  · cases stepped
  · cases stepped
  unfold Path.enter
  split at stepped
  · rw [if_pos ‹_›]
    exact (Except.ok.inj stepped).symm
  rw [if_neg ‹_›]
  split at stepped
  · rw [if_pos ‹_›]
    exact (Except.ok.inj stepped).symm
  rw [if_neg ‹_›]
  split at stepped
  · cases stepped
  split at stepped
  · exact (Except.ok.inj stepped).symm
  · cases stepped

theorem foldl_enter_of_foldlM {names : List String}
    (followed : names.foldlM tree.step place = .ok next) : next = names.foldl Path.enter place := by
  induction names generalizing place with
  | nil => exact (Except.ok.inj followed).symm
  | cons name rest ih =>
      rw [List.foldlM_cons] at followed
      obtain ⟨inner, stepped, others⟩ := ok_of_bind followed
      rw [List.foldl_cons, ← enter_of_step stepped]
      exact ih others

theorem placeFrom_of_resolve (resolved : tree.resolve working path = .ok place) :
    place = Path.placeFrom working path := by
  unfold resolve at resolved
  split at resolved
  · cases resolved
  split at resolved
  · cases resolved
  split at resolved
  · cases resolved
  rw [foldl_enter_of_foldlM resolved, Path.foldl_enter_names]
  rfl

/-- What is read is the text of the regular file that the path leads to. -/
theorem textAt?_of_read (read_eq : tree.read working path = .ok (place, text)) :
    place = Path.placeFrom working path ∧ tree.textAt? place = some text := by
  obtain ⟨reached, resolved, found⟩ := ok_of_bind read_eq
  split at found
  · cases found
  · cases found
  rename_i content file_eq
  split at found
  · rename_i decoded decoded_eq
    cases found
    refine ⟨placeFrom_of_resolve resolved, ?_⟩
    rw [textAt?, file_eq]
    exact decoded_eq
  · cases found

/-- A file stands in a directory. -/
theorem ne_nil_of_textAt? {entries : List (String × FileTree)}
    (text_eq : (directory entries).textAt? place = some text) : place ≠ [] := by
  rintro rfl
  cases text_eq

end

/-- The files that ask for others, each with the directory in which it is: the script in the base
directory, and a file that was got at a request in the directory of the file. -/
inductive Requests (tree : FileTree) (working : List String) (base : String) :
    SourceFile → (directory : List String) → Prop
  | script : Requests tree working base .script (Path.placeFrom working base)
  | included {requester : SourceFile} {directory : List String} {path : String}
      {file : IncludedFile} :
      Requests tree working base requester directory →
        Resolver.ofTree tree working base path requester = .ok file →
          Requests tree working base (.included file.path) (Path.placeFrom directory path).dropLast

section

variable {entries : List (String × FileTree)} {working directory directory' : List String}
  {base path path' : String} {requester requester' : SourceFile} {file file' : IncludedFile}

/-- The path to be read leads where the path leads from the place of its directory. -/
theorem placeFrom_candidate (working : List String) (base path : String) (requester : SourceFile) :
    Path.placeFrom working (Resolver.candidate base path requester) =
      Path.placeFrom (Path.placeFrom working ((requester.path?.bind Path.parent?).getD base))
        path :=
  Path.placeFrom_join working _ path

/-- A request gets the regular file at the place of its path. -/
theorem file_of_ofTree {tree : FileTree}
    (found : Resolver.ofTree tree working base path requester = .ok file) :
    let place := Path.placeFrom working (Resolver.candidate base path requester)
    tree.textAt? place = some file.text ∧ file.path = pathOf place := by
  intro place
  unfold Resolver.ofTree at found
  dsimp only at found
  split at found
  · rename_i reached text read_eq
    cases found
    obtain ⟨rfl, text_eq⟩ := textAt?_of_read read_eq
    exact ⟨text_eq, rfl⟩
  · cases found
  · cases found

/-- The directory of a file is where paths that are written in it start. -/
theorem Requests.directory_eq (is_place : Path.IsPlace working)
    (requests : Requests (.directory entries) working base requester directory) :
    Path.IsPlace directory ∧
      Path.placeFrom working ((requester.path?.bind Path.parent?).getD base) = directory := by
  induction requests with
  | script => exact ⟨is_place.placeFrom base, rfl⟩
  | @included requester directory path file _ found ih =>
      obtain ⟨is_directory, directory_eq⟩ := ih
      obtain ⟨text_eq, path_eq⟩ := file_of_ofTree found
      rw [placeFrom_candidate, directory_eq] at text_eq path_eq
      have is_file : Path.IsPlace (Path.placeFrom directory path) := is_directory.placeFrom path
      -- The identity is written from a place with a last name, so that its parent is written from
      -- the place before this name.
      rcases List.eq_nil_or_concat (Path.placeFrom directory path) with
        no_name | ⟨inner, name, place_eq⟩
      · exact absurd no_name (ne_nil_of_textAt? text_eq)
      rw [List.concat_eq_append] at place_eq
      rw [place_eq] at is_file path_eq ⊢
      have is_inner : Path.IsPlace inner :=
        fun other member => is_file other (List.mem_append_left [name] member)
      refine ⟨by rwa [List.dropLast_concat], ?_⟩
      rw [path_eq, SourceFile.path?, Option.bind_some, Path.parent?_pathOf is_file,
        Option.getD_some, Path.placeFrom_pathOf working is_inner, List.dropLast_concat]

/-- A request gets the regular file that its path leads to from the directory of its file. -/
theorem Requests.file_at (is_place : Path.IsPlace working)
    (requests : Requests (.directory entries) working base requester directory)
    (found : Resolver.ofTree (.directory entries) working base path requester = .ok file) :
    (FileTree.directory entries).textAt? (Path.placeFrom directory path) = some file.text ∧
      file.path = pathOf (Path.placeFrom directory path) := by
  have found_at := file_of_ofTree found
  rwa [placeFrom_candidate, (requests.directory_eq is_place).2] at found_at

/-- The identity of a file leads to the file, from wherever it is looked up. -/
theorem Requests.placeFrom_identity (is_place : Path.IsPlace working)
    (requests : Requests (.directory entries) working base requester directory)
    (found : Resolver.ofTree (.directory entries) working base path requester = .ok file) :
    Path.placeFrom [] file.path = Path.placeFrom directory path := by
  rw [(requests.file_at is_place found).2]
  exact Path.placeFrom_pathOf [] ((requests.directory_eq is_place).1.placeFrom path)

theorem Requests.identity_eq_iff (is_place : Path.IsPlace working)
    (requests : Requests (.directory entries) working base requester directory)
    (requests' : Requests (.directory entries) working base requester' directory')
    (found : Resolver.ofTree (.directory entries) working base path requester = .ok file)
    (found' : Resolver.ofTree (.directory entries) working base path' requester' = .ok file') :
    file.path = file'.path ↔ Path.placeFrom directory path = Path.placeFrom directory' path' := by
  rw [(requests.file_at is_place found).2, (requests'.file_at is_place found').2]
  exact Path.pathOf_inj ((requests.directory_eq is_place).1.placeFrom path)
    ((requests'.directory_eq is_place).1.placeFrom path')

end

end FileTree

namespace Build.Moment

/-- The places of the files that are being expanded. -/
def places (moment : Moment) : List (List String) :=
  moment.stack.map (Path.placeFrom [])

/-- Each file that is being expanded was got at a request of the script or of a file that was got
before. -/
def Requested (tree : FileTree) (working : List String) (base : String) (moment : Moment) : Prop :=
  ∀ identity ∈ moment.stack, ∃ requester directory path file,
    tree.Requests working base requester directory ∧
      Resolver.ofTree tree working base path requester = .ok file ∧ file.path = identity

section

variable {entries : List (String × FileTree)} {tree : FileTree} {working : List String}
  {base text : String} {limit : Nat} {moment next : Moment} {tokens : List Token}

theorem Requested.requests (requested : moment.Requested tree working base) :
    ∃ directory, tree.Requests working base moment.file directory := by
  obtain ⟨nested, tokens, draft⟩ := moment
  cases nested with
  | nil => exact ⟨_, .script⟩
  | cons frame nested =>
      obtain ⟨requester, directory, path, file, requests, found, path_eq⟩ :=
        requested frame.1 List.mem_cons_self
      exact ⟨_, path_eq ▸ requests.included found⟩

theorem Requested.move (moves : Moves (Resolver.ofTree tree working base) limit moment next)
    (sound : Sound (Resolver.ofTree tree working base) limit text moment.nested moment.tokens)
    (requested : moment.Requested tree working base) : next.Requested tree working base := by
  cases moves with
  | takes => exact requested
  | leaves => exact fun identity member => requested identity (List.mem_cons_of_mem _ member)
  | enters _ drawn =>
      -- The directive stands in the innermost file, which was got at a request itself.
      obtain ⟨-, -, path, file, found, rfl, -⟩ := file_of_drawIn drawn
      obtain ⟨directory, requests⟩ := requested.requests
      rw [sound.remains.occurs.start_file] at found
      intro identity member
      rcases List.mem_cons.mp member with rfl | outer
      · exact ⟨_, directory, path, file, requests, found, rfl⟩
      · exact requested identity outer

theorem requested_of_reaches {options : BuildOptions} {bindings : Variable.Table}
    (tokens_eq : tokenize .script text = .ok tokens)
    (reaches : (first options bindings tokens).Reaches (Resolver.ofTree tree working base) limit
      moment) : moment.Requested tree working base := by
  induction reaches with
  | refl => exact fun _ member => absurd member List.not_mem_nil
  | tail before step ih => exact ih.move (moves_of_advance step) (sound_of_reaches tokens_eq before)

/-- Each identity on the stack leads to a regular file, whose identity it is. -/
theorem Requested.file_at (is_place : Path.IsPlace working)
    (requested : moment.Requested (.directory entries) working base) {identity : String}
    (member : identity ∈ moment.stack) :
    ((FileTree.directory entries).textAt? (Path.placeFrom [] identity)).isSome ∧
      FileTree.pathOf (Path.placeFrom [] identity) = identity := by
  obtain ⟨requester, directory, path, file, requests, found, rfl⟩ := requested identity member
  obtain ⟨text_eq, path_eq⟩ := requests.file_at is_place found
  rw [requests.placeFrom_identity is_place found]
  exact ⟨Option.isSome_iff_exists.mpr ⟨_, text_eq⟩, path_eq.symm⟩

theorem Requested.places_nodup (is_place : Path.IsPlace working)
    (requested : moment.Requested (.directory entries) working base)
    (nodup : moment.stack.Nodup) : moment.places.Nodup := by
  refine List.Nodup.map_on (fun identity member other member' same => ?_) nodup
  rw [← (requested.file_at is_place member).2, same, (requested.file_at is_place member').2]

/-- A file is being expanded exactly if its place is one of the places. -/
theorem Requested.mem_places (is_place : Path.IsPlace working)
    (requested : moment.Requested (.directory entries) working base) {requester : SourceFile}
    {directory : List String} {path : String} {file : IncludedFile}
    (requests : FileTree.Requests (.directory entries) working base requester directory)
    (found : Resolver.ofTree (.directory entries) working base path requester = .ok file) :
    file.path ∈ moment.stack ↔ Path.placeFrom directory path ∈ moment.places := by
  rw [← requests.placeFrom_identity is_place found]
  constructor
  · exact List.mem_map_of_mem
  · intro member
    obtain ⟨identity, within, same⟩ := List.mem_map.mp member
    have path_eq : file.path = FileTree.pathOf (Path.placeFrom [] file.path) := by
      rw [requests.placeFrom_identity is_place found, (requests.file_at is_place found).2]
    rwa [path_eq, ← same, (requested.file_at is_place within).2]

end

end Build.Moment

/-- In a tree of files, each request of the script, or of a file that was got at a request, gets the
regular file that its path leads to from the directory of the requester, and two requests get the
same identity exactly if they lead to the same file.  So the files that are being expanded while a
script is built are different files of the tree, and a file is refused exactly if it is one of
them, whatever the spelling of its path. -/
theorem identity_of_includes (entries : List (String × FileTree)) (working : List String)
    (base : String) (is_place : Path.IsPlace working) :
    let tree := FileTree.directory entries
    let resolver := Resolver.ofTree tree working base
    (∀ requester directory path file, tree.Requests working base requester directory →
      resolver path requester = .ok file →
        tree.textAt? (Path.placeFrom directory path) = some file.text ∧
          file.path = FileTree.pathOf (Path.placeFrom directory path)) ∧
    (∀ requester requester' directory directory' path path' file file',
      tree.Requests working base requester directory → resolver path requester = .ok file →
        tree.Requests working base requester' directory' → resolver path' requester' = .ok file' →
          (file.path = file'.path ↔
            Path.placeFrom directory path = Path.placeFrom directory' path')) ∧
    ∀ (options : BuildOptions) (bindings : Variable.Table) (text : String) (tokens : List Token),
      tokenize .script text = .ok tokens →
        ∀ moment, (Build.Moment.first options bindings tokens).Reaches resolver
            options.maxIncludeDepth moment →
          moment.places.Nodup ∧
          (∀ place ∈ moment.places, (tree.textAt? place).isSome) ∧
          (∃ directory, tree.Requests working base moment.file directory) ∧
          ∀ directory, tree.Requests working base moment.file directory →
            ∀ directive rest path file, moment.Asks directive rest path →
              moment.stack.length ≠ options.maxIncludeDepth →
                resolver path moment.file = .ok file →
                  (Path.placeFrom directory path ∈ moment.places →
                    build resolver options bindings text = .error
                      { cause := .includeCycle file.path, position := directive.start }) ∧
                  (Path.placeFrom directory path ∉ moment.places →
                    moment.advance resolver options.maxIncludeDepth =
                      match tokenize (.included file.path) file.text with
                      | .error failure => .done (.error failure)
                      | .ok tokens => .next
                          { moment with nested := (file.path, rest) :: moment.nested, tokens })
    := by
  intro tree resolver
  refine ⟨fun _ _ _ _ requests found => requests.file_at is_place found,
    fun _ _ _ _ _ _ _ _ requests found requests' found' =>
      requests.identity_eq_iff is_place requests' found found', ?_⟩
  intro options bindings text tokens tokens_eq moment passes
  have sound := Build.Moment.sound_of_reaches tokens_eq passes
  have requested := Build.Moment.requested_of_reaches tokens_eq passes
  refine ⟨requested.places_nodup is_place sound.nodup, ?_, requested.requests, ?_⟩
  · exact List.forall_mem_map.mpr fun identity member => (requested.file_at is_place member).1
  intro directory requests directive rest path file asks level found
  have level_le : moment.stack.length ≤ options.maxIncludeDepth := by
    rw [Build.Moment.stack, List.length_map]
    exact sound.length_le
  have remains := sound.remains
  rw [asks.tokens_eq] at remains
  have carries : moment.CarriesOut resolver options.maxIncludeDepth directive rest path :=
    Build.Moment.carriesOut_of_asks asks level_le remains.occurs.start_file
  have again_iff := requested.mem_places is_place requests found
  refine ⟨fun again => ?_, fun fresh => carries.enters level found (mt again_iff.mp fresh)⟩
  exact Build.Moment.build_of_fails tokens_eq passes
    ((carries.cycle_iff level found _ _).mpr ⟨again_iff.mpr again, rfl, rfl⟩)

theorem identity_of_includes_at_cycle :
    let entries := [("srv", FileTree.directory
      [("lib", .directory []), ("a.sql", .file ":r lib/..//a.sql".toUTF8)])]
    let tree := FileTree.directory entries
    let resolver := Resolver.ofTree tree ["srv", "lib"] ".."
    let file : IncludedFile := { path := "/srv/a.sql", text := ":r lib/..//a.sql" }
    Path.IsPlace ["srv", "lib"] ∧
      tree.Requests ["srv", "lib"] ".." .script ["srv"] ∧
      resolver "a.sql" .script = .ok file ∧
      tree.Requests ["srv", "lib"] ".." (.included file.path) ["srv"] ∧
      resolver "lib/..//a.sql" (.included file.path) = .ok file ∧
      tree.textAt? ["srv", "a.sql"] = some file.text ∧
      Path.placeFrom ["srv"] "a.sql" = Path.placeFrom ["srv"] "lib/..//a.sql" ∧
      build resolver {} (Variable.Table.ofList []) ":r a.sql" =
        .error
          { cause := .includeCycle file.path, position := .startOf (.included file.path) } := by
  intro entries tree resolver file
  have is_place : Path.IsPlace ["srv", "lib"] := by decide
  have from_script : tree.Requests ["srv", "lib"] ".." .script ["srv"] := .script
  have found : resolver "a.sql" .script = .ok file := by decide +kernel
  have from_file : tree.Requests ["srv", "lib"] ".." (.included file.path) ["srv"] :=
    from_script.included found
  have found' : resolver "lib/..//a.sql" (.included file.path) = .ok file := by decide +kernel
  obtain ⟨file_at, identity_eq_iff, during⟩ :=
    identity_of_includes entries ["srv", "lib"] ".." is_place
  refine ⟨is_place, from_script, found, from_file, found',
    (file_at _ _ _ _ from_script found).1,
    (identity_eq_iff _ _ _ _ _ _ _ _ from_script found from_file found').mp rfl, ?_⟩
  let outer : Token :=
    { kind := .command
        { kind := .includeFile, arguments := "a.sql",
          argumentsStart := { file := .script, line := 1, column := 4, offset := 3 } },
      text := ":r a.sql", start := Position.startOf .script,
      stop := { file := .script, line := 1, column := 9, offset := 8 } }
  let inner : Token :=
    { kind := .command
        { kind := .includeFile, arguments := "lib/..//a.sql",
          argumentsStart := { file := .included file.path, line := 1, column := 4, offset := 3 } },
      text := ":r lib/..//a.sql", start := Position.startOf (.included file.path),
      stop := { file := .included file.path, line := 1, column := 17, offset := 16 } }
  have outer_eq : tokenize .script ":r a.sql" = .ok [outer] := by decide +kernel
  have inner_eq : tokenize (.included file.path) file.text = .ok [inner] := by decide +kernel
  let start := Build.Moment.first {} (Variable.Table.ofList []) [outer]
  obtain ⟨-, -, -, entered⟩ := during {} (Variable.Table.ofList []) _ _ outer_eq start .refl
  have enters := (entered _ from_script outer [] "a.sql" file ⟨rfl, _, rfl, by decide +kernel⟩
    (by decide) found).2 List.not_mem_nil
  rw [inner_eq] at enters
  obtain ⟨-, -, -, refused⟩ := during {} (Variable.Table.ofList []) _ _ outer_eq _ (.single enters)
  exact (refused _ from_file inner [] "lib/..//a.sql" file ⟨rfl, _, rfl, by decide +kernel⟩
    (by decide) found').1 (by decide +kernel)

end SqlScript
