import SqlScript.Proofs.Build.Sources
import SqlScript.Proofs.Engine.RunPath

/-!
# Positions of server errors

The line map of a batch leads each line of its text to where the line begins in the files that were
read.  In every run of the script the position of a server error is the entry of the line that the
server named, or the start of the batch if the batch has no such line.
-/

namespace SqlScript

/-- The number of lines of the text. -/
def Batch.lineCount (batch : Batch) : Nat :=
  batch.text.toList.count '\n' + 1

/-- The line map has an entry for each line of the text.  It is the origin of the first character of
the line, or the end of the last contribution for a last line without characters. -/
structure Batch.Maps (batch : Batch) (row : List Glyph) : Prop where
  size_eq : batch.lineMap.size = batch.lineCount
  first : ∀ before glyph after, row = before ++ glyph :: after →
    Glyph.endsLine true before = true →
      batch.lineMap.get? ((before.map Glyph.char).count '\n' + 1) = some glyph.origin
  last : ∀ before glyph, row = before ++ [glyph] → glyph.char = '\n' →
    batch.lineMap.get? batch.lineCount = some glyph.token.stop

/-- The position of a server error is that of its line, or the start of the batch. -/
def Batch.Locates (batch : Batch) (failure : ServerError) (position : Position) : Prop :=
  if 1 ≤ failure.line ∧ failure.line ≤ batch.lineCount then
    batch.lineMap.get? failure.line = some position
  else position = batch.start

theorem Batch.maps_of_lines {batch : Batch} {row : List Glyph}
    (lines_eq : batch.lines = Glyph.lines row) (text_ne : batch.text ≠ "") : batch.Maps row := by
  have text_eq : batch.text.toList = row.map Glyph.char := congrArg Prod.fst lines_eq
  have map_eq : batch.lineMap.toList = Glyph.lineMap row := congrArg Prod.snd lines_eq
  have row_ne : row ≠ [] := by
    rintro rfl
    exact text_ne (String.toList_eq_nil_iff.mp text_eq)
  refine ⟨?_, ?_, ?_⟩
  · rw [LineMap.size_eq_length, map_eq, Glyph.length_lineMap row_ne, lineCount, text_eq]
  · rintro before glyph after rfl fresh
    rw [LineMap.get?_succ, map_eq, Glyph.lineMap_of_first fresh]
  · rintro before glyph rfl feed
    rw [lineCount, LineMap.get?_succ, text_eq, map_eq, Glyph.lineMap_of_last feed]

namespace Engine

/-- Only a batch of the script reports a server error, at the position that its line map gives. -/
theorem Move.error_origin {scenario : Scenario} {machine machine' : Machine}
    {index repetition : Nat} {failure : ServerError} {position : Position}
    (move : Move scenario machine
      (some (.event (.error index repetition (.server failure position)))) machine') :
    ∃ target, machine.stage.target? = some target ∧ target.batch.index = index ∧
      target.positionOf failure = position := by
  generalize label_eq : some (Entry.event (.error index repetition (.server failure position))) =
    label at move
  cases move with
  | @forward target attempt call sent notice stage_eq =>
      cases notice with
      | message text => simp [Instance.eventOf] at label_eq
      | error noticed =>
          simp only [Instance.eventOf, Option.some.injEq, Entry.event.injEq, Event.error.injEq,
            ReportedError.server.injEq] at label_eq
          obtain ⟨rfl, rfl, rfl, rfl⟩ := label_eq
          exact ⟨target, by rw [stage_eq]; rfl, rfl, rfl⟩
  | @report target attempt call returned stage_eq =>
      cases returned with
      | server raised =>
          simp only [Instance.failureEvent, Instance.eventOf, Option.some.injEq,
            Entry.event.injEq, Event.error.injEq, ReportedError.server.injEq] at label_eq
          obtain ⟨rfl, rfl, rfl, rfl⟩ := label_eq
          exact ⟨target, by rw [stage_eq]; rfl, rfl, rfl⟩
      | _ => simp [Instance.failureEvent] at label_eq
  | _ => simp [Instance.started] at label_eq

theorem mem_batches_of_mem_instances {script : Script} {target : Instance}
    (member : target ∈ script.instances) :
    target.batch ∈ script.batches ∧ target.batch.isBlank = false := by
  obtain ⟨batch, runnable, repeated⟩ := List.mem_flatMap.mp member
  obtain ⟨repetition, -, rfl⟩ := List.mem_map.mp repeated
  have kept := List.mem_filter.mp runnable
  exact ⟨Array.mem_toList_iff.mp kept.1, by simpa using kept.2⟩

/-- The position of every server error of a run is found in the line map of a batch. -/
theorem locates_of_run {policy : Retry.Policy} {backend : Backend} {script : Script}
    {audience : Audience} {index repetition : Nat} {failure : ServerError} {position : Position}
    (reported : .error index repetition (.server failure position) ∈
      (run policy backend script audience).events) :
    ∃ batch ∈ script.batches, batch.index = index ∧ batch.isBlank = false ∧
      position = (batch.positionOfLine? failure.line).getD batch.start := by
  obtain ⟨machine, path, -⟩ := path_of_run policy backend script audience
  obtain ⟨entry, entry_member, entry_eq⟩ := List.mem_filterMap.mp reported
  obtain ⟨front, back, trace_eq⟩ := List.append_of_mem entry_member
  obtain ⟨before, after, path_before, move, -⟩ := path.split trace_eq
  have here := path_before.knows.here
  obtain rfl : entry = .event (.error index repetition (.server failure position)) := by
    cases entry <;> simp_all [Entry.event?]
  obtain ⟨target, target_eq, index_eq, position_eq⟩ := move.error_origin
  obtain ⟨batch_member, not_blank⟩ := mem_batches_of_mem_instances (here target target_eq)
  exact ⟨target.batch, batch_member, index_eq, not_blank, position_eq.symm⟩

end Engine

theorem Batch.locates {batch : Batch} {failure : ServerError} {position : Position}
    (size_eq : batch.lineMap.size = batch.lineCount)
    (position_eq : position = (batch.positionOfLine? failure.line).getD batch.start) :
    batch.Locates failure position := by
  subst position_eq
  unfold Locates positionOfLine?
  cases failure.line with
  | zero => simp
  | succ line =>
      rw [LineMap.get?_succ, ← size_eq, LineMap.size_eq_length]
      by_cases in_range : line < batch.lineMap.toList.length
      · have bounds : 1 ≤ line + 1 ∧ line + 1 ≤ batch.lineMap.toList.length := by omega
        rw [if_pos bounds, List.getElem?_eq_getElem in_range, Option.getD_some]
      · have beyond : ¬(1 ≤ line + 1 ∧ line + 1 ≤ batch.lineMap.toList.length) := by omega
        rw [if_neg beyond, List.getElem?_eq_none (Nat.le_of_not_lt in_range), Option.getD_none]

theorem Batch.text_ne_of_not_blank {batch : Batch} (not_blank : batch.isBlank = false) :
    batch.text ≠ "" := by
  intro text_eq
  rw [isBlank, text_eq] at not_blank
  exact absurd not_blank (by decide)

/-- The characters of each batch of a script that is built come from tokens that stand at their
exact places in the files that were read.  The line map of a batch that is not empty names, for each
line, the origin of its first character, or the end of the last contribution for a last line that
has none.  In every run of the script, the position of a server error is the entry of the line that
it names, or the start of its batch if there is no such line. -/
theorem positions_of_build {resolver : Resolver} {options : BuildOptions}
    {bindings : Variable.Table} {text : String} {script : Script}
    (built : build resolver options bindings text = .ok script) :
    ∃ tokens flat flow last, tokenize .script text = .ok tokens ∧
      Expands resolver bindings tokens flat flow last ∧
      (∀ token ∈ flat, token.Stems resolver text) ∧
      (∀ (place : Nat) (batch : Batch), script.batches[place]? = some batch →
        ∃ row, (Glyph.rows bindings [] flat)[place]? = some row ∧
          batch.text.toList = row.map Glyph.char ∧
          (∀ glyph ∈ row, glyph.Stems resolver text flat) ∧
          (batch.text ≠ "" → batch.Maps row)) ∧
      ∀ (policy : Retry.Policy) (backend : Engine.Backend) (audience : Engine.Audience)
        (index repetition : Nat) (failure : ServerError) (position : Position),
        .error index repetition (.server failure position) ∈
          (Engine.run policy backend script audience).events →
            ∃ batch, script.batches[index]? = some batch ∧ batch.Locates failure position := by
  obtain ⟨tokens, flat, flow, last, tokens_eq, expands, shown⟩ := lines_of_build built
  have token_stems := expands.stems tokens_eq
  have glyph_stems : ∀ row ∈ Glyph.rows bindings [] flat, ∀ glyph ∈ row,
      glyph.Stems resolver text flat := by
    refine Glyph.forall_mem_rows bindings (by simp) fun token member bindings glyph => ?_
    exact Glyph.stems_of_mem_ofToken member (token_stems token member)
  refine ⟨tokens, flat, flow, last, tokens_eq, expands, token_stems, ?_, ?_⟩
  · intro place batch found
    obtain ⟨-, row, row_at, lines_eq⟩ := shown place batch found
    refine ⟨row, row_at, congrArg Prod.fst lines_eq, ?_, Batch.maps_of_lines lines_eq⟩
    exact glyph_stems row (List.mem_of_getElem? row_at)
  · intro policy backend audience index repetition failure position reported
    obtain ⟨batch, member, index_eq, not_blank, position_eq⟩ := Engine.locates_of_run reported
    obtain ⟨place, found⟩ := Array.getElem?_of_mem member
    obtain ⟨place_eq, row, -, lines_eq⟩ := shown place batch found
    have maps := Batch.maps_of_lines lines_eq (Batch.text_ne_of_not_blank not_blank)
    refine ⟨batch, ?_, Batch.locates maps.size_eq position_eq⟩
    rw [← index_eq, place_eq, found]

theorem positions_of_build_with_include :
    let resolver := Resolver.ofFiles [("a", "i\n")]
    let bindings := Variable.Table.ofList [("x", "y\nz")]
    ∃ script batch row, build resolver {} bindings ":r a\n$(X)\n" = .ok script ∧
      script.batches[0]? = some batch ∧ batch.text = "i\n\ny\nz\n" ∧
        batch.text.toList = row.map Glyph.char ∧ batch.Maps row := by
  intro resolver bindings
  have evaluated : ((build resolver {} bindings ":r a\n$(X)\n").toOption.bind fun script =>
      script.batches[0]?.map Batch.text) = some "i\n\ny\nz\n" := by
    decide +kernel
  cases built : build resolver {} bindings ":r a\n$(X)\n" with
  | error failure =>
      rw [built] at evaluated
      contradiction
  | ok script =>
      rw [built] at evaluated
      obtain ⟨batch, found, text_eq⟩ := Option.map_eq_some_iff.mp evaluated
      obtain ⟨_, _, _, _, -, -, -, shown, -⟩ := positions_of_build built
      obtain ⟨row, -, chars_eq, -, maps⟩ := shown 0 batch found
      have text_ne : batch.text ≠ "" := by
        rw [text_eq]
        decide
      exact ⟨script, batch, row, rfl, found, text_eq, chars_eq, maps text_ne⟩

end SqlScript
