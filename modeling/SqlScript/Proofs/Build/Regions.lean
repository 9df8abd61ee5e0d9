import SqlScript.Proofs.Build.Closings
import SqlScript.Proofs.Build.Nesting

/-!
# Regions of batches

A batch whose region begins and ends in one file covers a part of that file, as long as the file is
not entered again behind the beginning.  At each moment of a walk, what is left of a file stands
behind all that was taken from it since it was entered; a file that is entered again begins anew, so
that a batch may then end before it begins (`Build.backward_region_of_repeated_include`).
-/

namespace SqlScript

/-- The span covers a part of a file that the script is read from. -/
inductive Span.IsRegion (resolver : Resolver) (text : String) (span : Span) : Prop
  | intro {content : String} {before between after : List Char} :
      Supplies resolver text span.start.file content →
        content.toList = before ++ (between ++ after) →
          span.start.Marks span.start.file before →
            span.stop.Marks span.start.file (before ++ between) → IsRegion resolver text span

/-- The span has no characters. -/
theorem Span.IsRegion.empty {resolver : Resolver} {text : String} {start stop : Position}
    (region : IsRegion resolver text { start, stop }) :
    IsRegion resolver text { start, stop := start } := by
  obtain ⟨supplies, split, marks, -⟩ := region
  rename_i content before between after
  have nothing_between : content.toList = before ++ ([] ++ (between ++ after)) := split
  exact .intro supplies nothing_between marks (by simpa using marks)

namespace Pending

variable {pending : Pending}

/-- A batch to which a token contributes begins where it began or in the token, and goes on to the
end of the token. -/
structure Extends (pending after : Pending) (token : Token) : Prop where
  begin_eq : ∃ position, after.begin? = some position ∧
    (pending.begin? = some position ∨
      ∃ front back, token.text.toList = front ++ back ∧ position = token.start.advance front)
  stop_eq : after.stop = some token.stop

theorem start_push (pending : Pending) (origin : Position) (c : Char) :
    (pending.push origin c).start = pending.start ∨
      (pending.push origin c).start = some origin := by
  unfold push
  cases pending.start <;> simp

theorem start_pushLiteral (position : Position) (text : List Char) (pending : Pending) :
    (pushLiteral position text pending).start = pending.start ∨
      ∃ front back, text = front ++ back ∧
        (pushLiteral position text pending).start = some (position.advance front) := by
  induction text generalizing position pending with
  | nil => exact .inl rfl
  | cons c text ih =>
      rw [pushLiteral]
      rcases ih (position.step c) (pending.push position c) with kept | ⟨front, back, rfl, begun⟩
      · rw [kept]
        rcases pending.start_push position c with same | fresh
        · exact .inl same
        · exact .inr ⟨[], c :: text, rfl, fresh⟩
      · exact .inr ⟨c :: front, back, rfl, begun⟩

theorem start_pushValue (origin : Position) (text : List Char) (pending : Pending) :
    (pushValue origin text pending).start = pending.start ∨
      (pushValue origin text pending).start = some origin := by
  induction text generalizing pending with
  | nil => exact .inl rfl
  | cons c text ih =>
      rw [pushValue, List.foldl_cons, ← pushValue]
      rcases ih (pending.push origin c) with kept | begun
      · rw [kept]
        exact pending.start_push origin c
      · exact .inr begun

theorem extends_contribute {token : Token} {text : List Char} {fill : List Char → Pending → Pending}
    (filled : (fill text pending).start = pending.start ∨
      ∃ front back, token.text.toList = front ++ back ∧
        (fill text pending).start = some (token.start.advance front)) :
    pending.contribute token.start token.stop text fill = pending ∨
      pending.Extends (pending.contribute token.start token.stop text fill) token := by
  unfold contribute
  split
  · exact .inl rfl
  refine .inr ⟨?_, rfl⟩
  simp only [begin?]
  rcases filled with kept | ⟨front, back, parts, begun⟩
  · rw [kept]
    cases start_eq : pending.start with
    | some position => exact ⟨position, rfl, .inl rfl⟩
    | none =>
        cases first_eq : pending.first with
        | some position => exact ⟨position, rfl, .inl rfl⟩
        | none => exact ⟨token.start, rfl, .inr ⟨[], _, rfl, rfl⟩⟩
  · rw [begun]
    exact ⟨_, rfl, .inr ⟨front, back, parts, rfl⟩⟩

theorem extends_appendLiteral (pending : Pending) (token : Token) :
    pending.appendLiteral token.start token.stop token.text = pending ∨
      pending.Extends (pending.appendLiteral token.start token.stop token.text) token :=
  extends_contribute (start_pushLiteral token.start token.text.toList pending)

theorem extends_appendValue (pending : Pending) (token : Token) (value : String) :
    pending.appendValue token.start token.stop value = pending ∨
      pending.Extends (pending.appendValue token.start token.stop value) token := by
  refine extends_contribute ?_
  rcases start_pushValue token.start value.toList pending with kept | begun
  · exact .inl kept
  · exact .inr ⟨[], _, rfl, begun⟩

end Pending

namespace Build

variable {resolver : Resolver} {limit : Nat} {text : String} {draft after : Draft}
  {inclusion : Expansion} {token : Token} {position : Position}

/-- While a walk goes on, the pending batch is kept, discarded or extended by one token. -/
theorem extends_of_accept (not_include : token.kind.commandKind? ≠ some .includeFile)
    (accepted : accept inclusion token draft = .ok (.goOn, after)) :
    after.pending.begin? = none ∧ after.pending.stop = none ∨
      after.batches = draft.batches ∧
        (after.pending = draft.pending ∨ draft.pending.Extends after.pending token) := by
  cases accepts_of_accept not_include accepted with
  | literal => exact .inr ⟨rfl, draft.pending.extends_appendLiteral token⟩
  | @value name value => exact .inr ⟨rfl, draft.pending.extends_appendValue token value⟩
  | separator =>
      rw [Draft.pending_close]
      exact .inl ⟨rfl, rfl⟩
  | list | listVar => exact .inr ⟨rfl, .inl rfl⟩
  | reset => exact .inl ⟨rfl, rfl⟩
  | setting _ _ _ pending_eq batches_eq => exact .inr ⟨batches_eq, .inl pending_eq⟩

/-- The tokens are the last ones of the file of `position` and stand behind it. -/
inductive Follows (resolver : Resolver) (text : String) (position : Position)
    (tokens : List Token) : Prop
  | intro {content : String} {taken : List Token} {before between : List Char} :
      Supplies resolver text position.file content →
        tokenize position.file content = .ok (taken ++ tokens) →
          Token.textOf taken = before ++ between → position.Marks position.file before →
            Follows resolver text position tokens

theorem Follows.tail {tokens : List Token}
    (follows : Follows resolver text position (token :: tokens)) :
    Follows resolver text position tokens := by
  obtain ⟨supplies, tokens_eq, taken_eq, marks⟩ := follows
  rename_i content taken before between
  have taken_eq' : Token.textOf (taken ++ [token]) =
      before ++ (between ++ token.text.toList) := by
    simp [taken_eq]
  exact .intro supplies (by simpa using tokens_eq) taken_eq' marks

/-- What is left of a file ends behind what stood before it. -/
theorem Follows.region {tokens : List Token}
    (follows : Follows resolver text position (token :: tokens)) :
    Span.IsRegion resolver text { start := position, stop := token.stop } := by
  obtain ⟨supplies, tokens_eq, taken_eq, marks⟩ := follows
  rename_i content taken before between
  obtain ⟨content_eq, start_eq, stop_eq⟩ := Lexing.coordinates_of_tokenize tokens_eq
  have split : content.toList =
      before ++ ((between ++ token.text.toList) ++ Token.textOf tokens) := by
    rw [content_eq, taken_eq]
    simp
  refine .intro supplies split marks ?_
  rw [stop_eq, start_eq, taken_eq, ← Position.advance_append, List.append_assoc]
  exact Position.marks_advance _ _

/-- A place in a token stands before the end of the token and before the tokens behind it. -/
theorem Remains.places {file : SourceFile} {tokens : List Token} {front back : List Char}
    (remains : Remains resolver text file (token :: tokens))
    (parts : token.text.toList = front ++ back) :
    (token.start.advance front).file = file ∧ token.stop.file = file ∧
      Follows resolver text (token.start.advance front) tokens ∧
        Span.IsRegion resolver text { start := token.start.advance front, stop := token.stop } := by
  obtain ⟨content, whole, supplies, whole_eq, taken, rfl⟩ := remains
  obtain ⟨content_eq, start_eq, stop_eq⟩ := Lexing.coordinates_of_tokenize whole_eq
  have place_eq : token.start.advance front =
      (Position.startOf file).advance (Token.textOf taken ++ front) := by
    rw [start_eq, Position.advance_append]
  have file_eq : (token.start.advance front).file = file := by
    rw [place_eq, Position.advance_file]
    rfl
  have marks : (token.start.advance front).Marks (token.start.advance front).file
      (Token.textOf taken ++ front) := by
    rw [file_eq, place_eq]
    exact Position.marks_advance _ _
  have stop_file : token.stop.file = file := by
    rw [stop_eq, parts, Position.advance_append, Position.advance_file, file_eq]
  refine ⟨file_eq, stop_file, ?_, ?_⟩
  · have taken_eq : Token.textOf (taken ++ [token]) = (Token.textOf taken ++ front) ++ back := by
      simp [parts]
    rw [← file_eq] at supplies whole_eq
    exact .intro supplies (by simpa using whole_eq) taken_eq marks
  · rw [← file_eq] at supplies
    have split : content.toList =
        (Token.textOf taken ++ front) ++ (back ++ Token.textOf tokens) := by
      rw [content_eq, parts]
      simp
    have end_eq : token.stop =
        (Position.startOf file).advance ((Token.textOf taken ++ front) ++ back) := by
      rw [stop_eq, parts, Position.advance_append, place_eq, ← Position.advance_append]
    refine .intro supplies split marks ?_
    dsimp only
    rw [file_eq, end_eq]
    exact Position.marks_advance _ _

namespace Moment

/-- The file that tokens are taken from while the files of `nested` are being expanded. -/
def innermost : (nested : List (String × List Token)) → SourceFile
  | [] => .script
  | (path, _) :: _ => .included path

/-- The files around the innermost one, each with what is left of it. -/
def waiting : (nested : List (String × List Token)) → List (SourceFile × List Token)
  | [] => []
  | (_, outer) :: nested => (innermost nested, outer) :: waiting nested

variable {moment next : Moment} {nested : List (String × List Token)} {tokens : List Token}

theorem waiting_subset : ∀ frame ∈ waiting nested,
    frame.1 = .script ∨ ∃ path ∈ nested.map Prod.fst, frame.1 = .included path := by
  have of_innermost (nested : List (String × List Token)) : innermost nested = .script ∨
      ∃ path ∈ nested.map Prod.fst, innermost nested = .included path := by
    cases nested with
    | nil => exact .inl rfl
    | cons frame nested => exact .inr ⟨frame.1, by simp, rfl⟩
  have widen (path : String) {nested : List (String × List Token)} {file : SourceFile}
      (known : file = .script ∨ ∃ path ∈ nested.map Prod.fst, file = .included path) :
      file = .script ∨ ∃ other ∈ path :: nested.map Prod.fst, file = .included other := by
    rcases known with script | ⟨other, member, included⟩
    · exact .inl script
    · exact .inr ⟨other, List.mem_cons_of_mem path member, included⟩
  induction nested with
  | nil => simp [waiting]
  | cons frame nested ih =>
      refine List.forall_mem_cons.mpr ⟨widen frame.1 (of_innermost nested), fun outer member => ?_⟩
      exact widen frame.1 (ih outer member)

/-- A file does not wait for itself. -/
theorem Sound.not_waiting (sound : Sound resolver limit text nested tokens) :
    ∀ frame ∈ waiting nested, frame.1 ≠ innermost nested := by
  intro frame member same
  cases sound with
  | script => cases member
  | @included nested path outer _ _ fresh =>
      rcases List.mem_cons.mp member with rfl | further
      · cases nested with
        | nil => cases same
        | cons frame nested =>
            cases same
            exact fresh (by simp)
      · rcases waiting_subset frame further with script | ⟨other, other_member, included⟩
        · rw [script] at same
          cases same
        · rw [included] at same
          cases same
          exact fresh other_member

/-- The pending batch begins at the position, what is left of its file stands behind the position,
and a batch that ends in the same file covers a part of it. -/
structure Begun (resolver : Resolver) (text : String) (position : Position) (moment : Moment) :
    Prop where
  place : Span.IsRegion resolver text { start := position, stop := position }
  here : innermost moment.nested = position.file → Follows resolver text position moment.tokens
  waits : ∀ frame ∈ waiting moment.nested, frame.1 = position.file →
    Follows resolver text position frame.2
  region : ∀ stop ∈ moment.draft.pending.stop, stop.file = position.file →
    Span.IsRegion resolver text { start := position, stop }

theorem begun_of_extends {rest : List Token}
    (sound : Sound resolver limit text nested (token :: rest))
    (extended : draft.pending.Extends after.pending token)
    (begin_eq : after.pending.begin? = some position)
    (begun : draft.pending.begin? = some position →
      Begun resolver text position { nested, tokens := token :: rest, draft }) :
    Begun resolver text position { nested, tokens := rest, draft := after } := by
  obtain ⟨⟨begin', begin_eq', origin⟩, stop_eq⟩ := extended
  obtain rfl := Option.some.inj (begin_eq'.symm.trans begin_eq)
  have remains : Remains resolver text (innermost nested) (token :: rest) := by
    cases sound <;> assumption
  rcases origin with before | ⟨front, back, parts, rfl⟩
  · obtain ⟨place, here, waits, -⟩ := begun before
    obtain ⟨-, stop_file, -⟩ := remains.places (List.nil_append _).symm
    refine ⟨place, fun same => (here same).tail, waits, fun stop found same => ?_⟩
    rw [stop_eq] at found
    cases found
    exact (here (stop_file.symm.trans same)).region
  · obtain ⟨file_eq, -, follows, region⟩ := remains.places parts
    refine ⟨region.empty, fun _ => follows, fun frame member same => ?_, fun stop found _ => ?_⟩
    · exact (sound.not_waiting frame member (same.trans file_eq)).elim
    · rw [stop_eq] at found
      cases found
      exact region

/-- A beginning stays one at the next moment unless its file is entered again. -/
theorem begun_of_moves (moves : Moves resolver limit moment next)
    (sound : Sound resolver limit text moment.nested moment.tokens)
    (begin_eq : next.draft.pending.begin? = some position)
    (begun : moment.draft.batches.size = next.draft.batches.size →
      moment.draft.pending.begin? = some position → Begun resolver text position moment)
    (not_again : moment.draft.pending.begin? = some position →
      moment.draft.batches.size = next.draft.batches.size →
        ∀ path outer, next.nested = (path, outer) :: moment.nested →
          .included path ≠ position.file) :
    Begun resolver text position next := by
  cases moves with
  | takes no_inclusion accepted =>
      have not_include := TokenKind.inclusion?_eq_none_iff.mp no_inclusion
      rcases extends_of_accept not_include accepted with
        ⟨none_begun, -⟩ | ⟨batches_eq, pending_eq | extended⟩
      · rw [none_begun] at begin_eq
        contradiction
      · rw [pending_eq] at begin_eq
        obtain ⟨place, here, waits, region⟩ := begun (by rw [batches_eq]) begin_eq
        refine ⟨place, fun same => (here same).tail, waits, ?_⟩
        rwa [pending_eq]
      · exact begun_of_extends sound extended begin_eq (begun (by rw [batches_eq]))
  | enters =>
      obtain ⟨place, here, waits, region⟩ := begun rfl begin_eq
      refine ⟨place, fun same => (not_again begin_eq rfl _ _ rfl same).elim, ?_, region⟩
      exact List.forall_mem_cons.mpr ⟨fun same => (here same).tail, waits⟩
  | leaves =>
      obtain ⟨place, here, waits, region⟩ := begun rfl begin_eq
      obtain ⟨innermost_waits, outer_wait⟩ := List.forall_mem_cons.mp waits
      exact ⟨place, innermost_waits, outer_wait, region⟩

/-- A batch without a beginning has no end. -/
theorem stop_of_moves (moves : Moves resolver limit moment next)
    (unbegun : moment.draft.pending.begin? = none → moment.draft.pending.stop = none) :
    next.draft.pending.begin? = none → next.draft.pending.stop = none := by
  intro none_begun
  cases moves with
  | takes no_inclusion accepted =>
      have not_include := TokenKind.inclusion?_eq_none_iff.mp no_inclusion
      rcases extends_of_accept not_include accepted with
        ⟨-, no_stop⟩ | ⟨-, pending_eq | ⟨⟨position, begin_eq, -⟩, -⟩⟩
      · exact no_stop
      · rw [pending_eq] at none_begun ⊢
        exact unbegun none_begun
      · rw [none_begun] at begin_eq
        contradiction
  | enters => exact unbegun none_begun
  | leaves => exact unbegun none_begun

end Moment

/-- While a batch that begins at `start` is pending behind `closed` batches, the file of `start` is
entered. -/
def EntersAgain (resolver : Resolver) (options : BuildOptions) (bindings : Variable.Table)
    (text : String) (closed : Nat) (start : Position) : Prop :=
  ∃ tokens moment next path outer, tokenize .script text = .ok tokens ∧
    (Moment.first options bindings tokens).Reaches resolver options.maxIncludeDepth moment ∧
      moment.advance resolver options.maxIncludeDepth = .next next ∧
        next.nested = (path, outer) :: moment.nested ∧ start.file = .included path ∧
          moment.draft.batches.size = closed ∧ moment.draft.pending.begin? = some start

variable {options : BuildOptions} {bindings : Variable.Table} {tokens : List Token}
  {moment : Moment}

/-- The script itself is never entered again. -/
theorem not_entersAgain_of_script {closed : Nat} (in_script : position.file = .script) :
    ¬EntersAgain resolver options bindings text closed position := by
  rintro ⟨_, _, _, path, _, -, -, -, -, included, -⟩
  rw [in_script] at included
  contradiction

theorem begun_of_reaches (tokens_eq : tokenize .script text = .ok tokens) {closed : Nat}
    (once : ¬EntersAgain resolver options bindings text closed position)
    (reaches : (Moment.first options bindings tokens).Reaches resolver options.maxIncludeDepth
      moment) :
    moment.draft.batches.size = closed → moment.draft.pending.begin? = some position →
      Moment.Begun resolver text position moment := by
  induction reaches with
  | refl =>
      intro _ begin_eq
      cases begin_eq
  | @tail middle next passes step ih =>
      intro size_eq begin_eq
      refine Moment.begun_of_moves (Moment.moves_of_advance step)
        (Moment.sound_of_reaches tokens_eq passes) begin_eq
        (fun same => ih (same.trans size_eq)) ?_
      intro begin_before same path outer entered is_file
      exact once ⟨tokens, middle, next, path, outer, tokens_eq, passes, step, entered, is_file.symm,
        same.trans size_eq, begin_before⟩

theorem stop_of_reaches
    (reaches : (Moment.first options bindings tokens).Reaches resolver limit moment) :
    moment.draft.pending.begin? = none → moment.draft.pending.stop = none := by
  induction reaches with
  | refl => exact fun _ => rfl
  | tail _ step ih => exact Moment.stop_of_moves (Moment.moves_of_advance step) ih

/-- A batch that is closed covers a part of the file that both of its ends lie in. -/
theorem region_of_closes {batch : Batch}
    (sound : Moment.Sound resolver limit text moment.nested moment.tokens)
    (begun : moment.draft.pending.begin? = some batch.start →
      Moment.Begun resolver text batch.start moment)
    (unbegun : moment.draft.pending.begin? = none → moment.draft.pending.stop = none)
    (closes : moment.Closes batch) (same_file : batch.start.file = batch.stop.file) :
    batch.span.IsRegion resolver text := by
  obtain ⟨separator, -, -, start_eq, stop_eq⟩ := closes.closed
  cases begin_eq : moment.draft.pending.begin? with
  | some position =>
      rw [begin_eq] at start_eq
      obtain rfl : position = batch.start := Option.some.inj start_eq
      obtain ⟨place, -, -, region⟩ := begun begin_eq
      cases stop_found : moment.draft.pending.stop with
      | none =>
          rw [stop_found, Option.getD_none] at stop_eq
          rwa [Batch.span, stop_eq]
      | some stop =>
          rw [stop_found, Option.getD_some] at stop_eq
          rw [Batch.span, stop_eq]
          exact region stop stop_found (by rw [same_file, stop_eq])
  | none =>
      -- Without text the batch is closed at a separator, where it is empty.
      cases closes with
      | last _ closed =>
          have nowhere := closed.start_eq
          rw [begin_eq] at nowhere
          cases nowhere
      | @separator token _ head_eq _ closed =>
          have there := closed.start_eq
          rw [begin_eq] at there
          obtain there : token.start = batch.start := Option.some.inj there
          have no_stop := closed.stop_eq
          rw [unbegun begin_eq, Option.getD_none] at no_stop
          obtain ⟨rest, tokens_here⟩ : ∃ rest, moment.tokens = token :: rest :=
            List.head?_eq_some_iff.mp head_eq
          have remains := sound.remains
          rw [tokens_here] at remains
          obtain ⟨-, -, -, region⟩ := remains.places (List.nil_append _).symm
          rw [Batch.span, no_stop, ← there]
          exact region.empty

end Build

namespace Coordinates

/-- The point does not come after the other, lines first and columns second. -/
def Precedes (point other : Coordinates) : Prop :=
  point.line < other.line ∨ point.line = other.line ∧ point.column ≤ other.column

theorem advance_append (point : Coordinates) (front back : List Char) :
    point.advance (front ++ back) = (point.advance front).advance back :=
  List.foldl_append

theorem precedes_advance (point : Coordinates) (text : List Char) :
    point.Precedes (point.advance text) := by
  induction text generalizing point with
  | nil => exact .inr ⟨rfl, Nat.le_refl _⟩
  | cons c text ih =>
      have rest := ih (point.step c)
      change point.Precedes ((point.step c).advance text)
      simp only [Precedes] at rest ⊢
      unfold step at rest ⊢
      split at rest <;> simp_all <;> omega

end Coordinates

/-- A batch whose region begins and ends in one file covers a part of that file, and its end does
not come before its beginning, unless the file is entered again while the batch is pending. -/
theorem regions_of_build {resolver : Resolver} {options : BuildOptions} {bindings : Variable.Table}
    {text : String} {script : Script} {index : Nat} {batch : Batch}
    (built : build resolver options bindings text = .ok script)
    (found : script.batches[index]? = some batch)
    (same_file : batch.start.file = batch.stop.file)
    (once : ¬Build.EntersAgain resolver options bindings text index batch.start) :
    ∃ content before between after, Supplies resolver text batch.start.file content ∧
      content.toList = before ++ (between ++ after) ∧
        batch.start.Marks batch.start.file before ∧
          batch.stop.Marks batch.start.file (before ++ between) ∧
            batch.start.offset ≤ batch.stop.offset ∧
              (content.length < UInt32.size - 1 →
                batch.start.coordinates.Precedes batch.stop.coordinates) := by
  obtain ⟨tokens, moment, tokens_eq, reaches, size_eq, closes⟩ := Build.closes_of_build built found
  have region : batch.span.IsRegion resolver text :=
    Build.region_of_closes (Build.Moment.sound_of_reaches tokens_eq reaches)
      (Build.begun_of_reaches tokens_eq once reaches size_eq) (Build.stop_of_reaches reaches)
      closes same_file
  obtain ⟨supplies, split, start_marks, stop_marks⟩ := region
  rename_i content before between after
  refine ⟨content, before, between, after, supplies, split, start_marks, stop_marks, ?_, ?_⟩
  · have stop_eq := stop_marks.position_eq
    rw [Position.advance_append, ← start_marks.position_eq] at stop_eq
    change batch.stop = batch.start.advance between at stop_eq
    rw [stop_eq]
    exact Position.le_offset_advance _ _
  · intro bounded
    have lengths := congrArg List.length split
    rw [String.length_toList, List.length_append, List.length_append] at lengths
    have start_eq := start_marks.exact (by omega)
    have stop_eq := stop_marks.exact (by rw [List.length_append]; omega)
    change batch.start.coordinates = _ at start_eq
    change batch.stop.coordinates = _ at stop_eq
    rw [stop_eq, Coordinates.advance_append, ← start_eq]
    exact Coordinates.precedes_advance _ _

/-- A batch that begins before an include directive and ends behind it. -/
theorem region_of_batch_around_include :
    let resolver := Resolver.ofFiles [("a", "x\n")]
    let text := "b\n:r a\nc"
    ∃ script batch, build resolver {} (.ofList []) text = .ok script ∧
      script.batches[0]? = some batch ∧ batch.start.file = batch.stop.file ∧
        ¬Build.EntersAgain resolver {} (.ofList []) text 0 batch.start ∧
          ∃ content before between after, Supplies resolver text batch.start.file content ∧
            content.toList = before ++ (between ++ after) ∧
              batch.start.Marks batch.start.file before ∧
                batch.stop.Marks batch.start.file (before ++ between) ∧
                  batch.start.offset ≤ batch.stop.offset ∧
                    (content.length < UInt32.size - 1 →
                      batch.start.coordinates.Precedes batch.stop.coordinates) := by
  intro resolver text
  have evaluated : (build resolver {} (.ofList []) text).toOption.map
      (fun script => script.batches.toList.map Batch.span) = some
        [{ start := { file := .script, line := 1, column := 1, offset := 0 }
           stop := { file := .script, line := 3, column := 2, offset := 8 } }] := by
    decide +kernel +zetaReduce
  cases built : build resolver {} (.ofList []) text with
  | error failure =>
      rw [built] at evaluated
      contradiction
  | ok script =>
      rw [built] at evaluated
      have span_at := congrArg (·[0]?) (Option.some.inj evaluated)
      rw [List.getElem?_map, Array.getElem?_toList] at span_at
      obtain ⟨batch, found, span_eq⟩ := Option.map_eq_some_iff.mp span_at
      have start_file : batch.start.file = .script := by
        rw [show batch.start = batch.span.start from rfl, span_eq]
      have stop_file : batch.stop.file = .script := by
        rw [show batch.stop = batch.span.stop from rfl, span_eq]
      have same_file := start_file.trans stop_file.symm
      have once : ¬Build.EntersAgain resolver {} (.ofList []) text 0 batch.start :=
        Build.not_entersAgain_of_script start_file
      exact ⟨script, batch, rfl, found, same_file, once,
        regions_of_build built found same_file once⟩

/-- A file that is included twice: the second batch begins behind the separator of the file and ends
before it, where the first batch has ended. -/
theorem backward_region_of_repeated_include :
    ∃ script batch,
      build (Resolver.ofFiles [("a", "x\nGO\ny")]) {} (.ofList []) ":r a\n:r a\n" = .ok script ∧
        script.batches[1]? = some batch ∧ batch.start.file = batch.stop.file ∧
          batch.stop.offset < batch.start.offset ∧ batch.stop.line < batch.start.line ∧
            batch.span.display = "a:3:1-2:1" := by
  have evaluated :
      (build (Resolver.ofFiles [("a", "x\nGO\ny")]) {} (.ofList []) ":r a\n:r a\n").toOption.map
        (fun script => script.batches.toList.map Batch.span) = some
          [{ start := { file := .included "a", line := 1, column := 1, offset := 0 }
             stop := { file := .included "a", line := 2, column := 1, offset := 2 } },
           { start := { file := .included "a", line := 3, column := 1, offset := 5 }
             stop := { file := .included "a", line := 2, column := 1, offset := 2 } },
           { start := { file := .included "a", line := 3, column := 1, offset := 5 }
             stop := { file := .script, line := 3, column := 1, offset := 10 } }] := by
    decide +kernel
  cases built : build (Resolver.ofFiles [("a", "x\nGO\ny")]) {} (.ofList []) ":r a\n:r a\n" with
  | error failure =>
      rw [built] at evaluated
      contradiction
  | ok script =>
      rw [built] at evaluated
      have spans_eq := Option.some.inj evaluated
      have span_at := congrArg (·[1]?) spans_eq
      rw [List.getElem?_map, Array.getElem?_toList] at span_at
      obtain ⟨batch, found, span_eq⟩ := Option.map_eq_some_iff.mp span_at
      refine ⟨script, batch, rfl, found, ?_⟩
      have start_eq := congrArg Span.start span_eq
      have stop_eq := congrArg Span.stop span_eq
      change batch.start = _ at start_eq
      change batch.stop = _ at stop_eq
      rw [start_eq, stop_eq, span_eq]
      decide

end SqlScript
