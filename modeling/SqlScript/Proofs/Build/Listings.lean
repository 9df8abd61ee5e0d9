import Mathlib.Data.List.DropRight
import SqlScript.Proofs.Build.Continuation
import SqlScript.Proofs.Build.Sources
import SqlScript.Proofs.Token.Forms

/-!
# Listings of built scripts

The commands `:list` and `:listvar` record messages, and the batches of a script carry them.  What
is recorded, and where batches are closed, is told by the expanded script alone (`Deed.ofTokens`).
Of all that becomes of pending text, messages are only moved when a batch that is not blank is
closed.
-/

namespace SqlScript

/-- What is done about the messages of a script. -/
inductive Deed where
  | records (message : String)
  /-- The text gathered so far is closed as a batch. -/
  | closes (text : List Char)
  deriving DecidableEq, Repr

namespace Deed

/-- What is done by `tokens` if `gathered` is pending. -/
def ofTokens : (bindings : Variable.Table) → (gathered : List Char) → List Token → List Deed
  | _, gathered, [] => [closes gathered]
  | bindings, gathered, token :: tokens =>
      match token.kind with
      | .separator _ => closes gathered :: ofTokens (bindings.after token) [] tokens
      | .command command =>
          match command.kind with
          | .list =>
              records (String.ofList gathered) ::
                ofTokens (bindings.after token) gathered tokens
          | .listVar =>
              records bindings.listing :: ofTokens (bindings.after token) gathered tokens
          | .reset => ofTokens (bindings.after token) [] tokens
          | .quit => []
          | .exit => [closes gathered]
          | _ => ofTokens (bindings.after token) gathered tokens
      | _ => ofTokens (bindings.after token) (gathered ++ token.contribution bindings) tokens

theorem ofTokens_of_literal {bindings : Variable.Table} {gathered : List Char} {token : Token}
    {tokens : List Token} (is_literal : token.kind.isLiteral = true) :
    ofTokens bindings gathered (token :: tokens) =
      ofTokens (bindings.after token) (gathered ++ token.contribution bindings) tokens := by
  cases kind_eq : token.kind <;> simp_all [ofTokens, TokenKind.isLiteral]

theorem ofTokens_of_setting {bindings : Variable.Table} {gathered : List Char} {token : Token}
    {tokens : List Token} {command : Command} (kind_eq : token.kind = .command command)
    (other : command.kind ∉ [.includeFile, .list, .listVar, .reset, .quit, .exit]) :
    ofTokens bindings gathered (token :: tokens) =
      ofTokens (bindings.after token) gathered tokens := by
  cases name_eq : command.kind <;> simp_all [ofTokens]

/-- The message that is recorded. -/
def message? : Deed → Option String
  | records message => some message
  | closes _ => none

/-- Whether a batch is closed. -/
def isClosing : Deed → Bool
  | records _ => false
  | closes _ => true

/-- Whether a batch is closed that takes messages. -/
def isDelivery : Deed → Bool
  | records _ => false
  | closes text => !Text.isBlankText text

/-- The messages that were recorded behind the last batch that is not blank. -/
def waiting (deeds : List Deed) : List String :=
  (deeds.rtakeWhile fun deed => !deed.isDelivery).filterMap message?

theorem waiting_records (deeds : List Deed) (message : String) :
    waiting (deeds ++ [records message]) = waiting deeds ++ [message] := by
  rw [waiting, List.rtakeWhile_concat_pos _ _ _ rfl, List.filterMap_append]
  rfl

theorem waiting_closes_of_blank {text : List Char} (blank : Text.isBlankText text = true)
    (deeds : List Deed) : waiting (deeds ++ [closes text]) = waiting deeds := by
  rw [waiting, List.rtakeWhile_concat_pos _ _ _ (by simp [isDelivery, blank]),
    List.filterMap_append]
  exact List.append_nil _

theorem waiting_closes {text : List Char} (not_blank : Text.isBlankText text = false)
    (deeds : List Deed) : waiting (deeds ++ [closes text]) = [] := by
  rw [waiting, List.rtakeWhile_concat_neg _ _ _ (by simp [isDelivery, not_blank])]
  rfl

/-- A deed is the last one or stands before it. -/
theorem split_concat {deeds : List Deed} {last deed : Deed} {before after : List Deed}
    (split : deeds ++ [last] = before ++ deed :: after) :
    deeds = before ∧ last = deed ∨ ∃ rest, deeds = before ++ deed :: rest := by
  rcases List.eq_nil_or_concat after with rfl | ⟨rest, end_of, rfl⟩
  · obtain ⟨rfl, last_eq⟩ := List.append_inj' split rfl
    exact .inl ⟨rfl, List.singleton_inj.mp last_eq⟩
  · rw [List.concat_eq_append, ← List.cons_append, ← List.append_assoc] at split
    exact .inr ⟨rest, (List.append_inj' split rfl).1⟩

/-- The recorded messages are carried by `batches`, each by the first that is closed behind it and
is not blank; those of `left` are left over. -/
structure Delivered (deeds : List Deed) (batches : List Batch) (left : List String) : Prop where
  in_order : deeds.filterMap message? = batches.flatMap Batch.preamble ++ left
  carried : ∀ {before after text}, deeds = before ++ closes text :: after →
    Text.isBlankText text = false →
      ∃ batch, batches[before.countP isClosing]? = some batch ∧ batch.text.toList = text ∧
        batch.preamble = waiting before
  none_blank : ∀ batch ∈ batches, batch.isBlank = true → batch.preamble = []
  left_eq : left = waiting deeds
  /-- No batch is to be run no times. -/
  repeated : ∀ batch ∈ batches, 0 < batch.repeatCount

namespace Delivered

variable {deeds : List Deed} {batches : List Batch} {left : List String}

theorem nil : Delivered [] [] [] where
  in_order := rfl
  carried := by simp
  none_blank := by simp
  left_eq := rfl
  repeated := by simp

theorem records (delivered : Delivered deeds batches left) (message : String) :
    Delivered (deeds ++ [.records message]) batches (left ++ [message]) where
  in_order := by
    rw [List.filterMap_append, delivered.in_order, List.append_assoc]
    rfl
  carried split not_blank := by
    rcases split_concat split with ⟨-, absurd⟩ | ⟨rest, split⟩
    · cases absurd
    · exact delivered.carried split not_blank
  none_blank := delivered.none_blank
  left_eq := by rw [waiting_records, delivered.left_eq]
  repeated := delivered.repeated

/-- A blank text that is not made into a batch takes no messages. -/
theorem skips (delivered : Delivered deeds batches left) {text : List Char}
    (blank : Text.isBlankText text = true) :
    Delivered (deeds ++ [.closes text]) batches left where
  in_order := by
    rw [List.filterMap_append, delivered.in_order]
    exact List.append_nil _
  carried split not_blank := by
    rcases split_concat split with ⟨-, same⟩ | ⟨rest, split⟩
    · cases same
      simp [blank] at not_blank
    · exact delivered.carried split not_blank
  none_blank := delivered.none_blank
  left_eq := by rw [waiting_closes_of_blank blank, delivered.left_eq]
  repeated := delivered.repeated

/-- A batch without messages changes nothing. -/
theorem with_silent (delivered : Delivered deeds batches left) {batch : Batch}
    (preamble_eq : batch.preamble = []) (repeated : 0 < batch.repeatCount) :
    Delivered deeds (batches ++ [batch]) left where
  in_order := by
    rw [delivered.in_order, List.flatMap_append, List.flatMap_singleton, preamble_eq,
      List.append_nil]
  carried split not_blank := by
    obtain ⟨carrier, found, carries⟩ := delivered.carried split not_blank
    have inside := (List.getElem?_eq_some_iff.mp found).1
    exact ⟨carrier, by rw [List.getElem?_append_left inside, found], carries⟩
  none_blank :=
    List.forall_mem_append.mpr
      ⟨delivered.none_blank, List.forall_mem_singleton.mpr fun _ => preamble_eq⟩
  left_eq := delivered.left_eq
  repeated :=
    List.forall_mem_append.mpr ⟨delivered.repeated, List.forall_mem_singleton.mpr repeated⟩

theorem closes (delivered : Delivered deeds batches left) {batch : Batch} {text : List Char}
    (length_eq : batches.length = deeds.countP isClosing)
    (not_blank : Text.isBlankText text = false) (text_eq : batch.text.toList = text)
    (preamble_eq : batch.preamble = left) (repeated : 0 < batch.repeatCount) :
    Delivered (deeds ++ [.closes text]) (batches ++ [batch]) [] where
  in_order := by
    rw [List.filterMap_append, delivered.in_order, List.flatMap_append, List.flatMap_singleton,
      preamble_eq]
    rfl
  carried split not_blank := by
    rcases split_concat split with ⟨rfl, same⟩ | ⟨rest, split⟩
    · cases same
      exact ⟨batch, by rw [← length_eq, List.getElem?_concat_length], text_eq,
        preamble_eq.trans delivered.left_eq⟩
    · obtain ⟨carrier, found, carries⟩ := delivered.carried split not_blank
      have inside := (List.getElem?_eq_some_iff.mp found).1
      exact ⟨carrier, by rw [List.getElem?_append_left inside, found], carries⟩
  none_blank := by
    refine List.forall_mem_append.mpr ⟨delivered.none_blank, List.forall_mem_singleton.mpr ?_⟩
    rw [Batch.isBlank, text_eq, not_blank]
    simp
  left_eq := (waiting_closes not_blank deeds).symm
  repeated :=
    List.forall_mem_append.mpr ⟨delivered.repeated, List.forall_mem_singleton.mpr repeated⟩

/-- Blank batches at the end carry nothing. -/
theorem without_blanks {blanks : List Batch}
    (delivered : Delivered deeds (batches ++ blanks) left)
    (blank : ∀ batch ∈ blanks, batch.isBlank = true) : Delivered deeds batches left where
  in_order := by
    have nothing : blanks.flatMap Batch.preamble = [] :=
      List.flatMap_eq_nil_iff.mpr fun batch member =>
        delivered.none_blank batch (List.mem_append_right _ member) (blank batch member)
    rw [delivered.in_order, List.flatMap_append, nothing, List.append_nil]
  carried {before _ _} split not_blank := by
    obtain ⟨batch, found, text_eq, preamble_eq⟩ := delivered.carried split not_blank
    refine ⟨batch, ?_, text_eq, preamble_eq⟩
    by_cases inside : before.countP isClosing < batches.length
    · rwa [List.getElem?_append_left inside] at found
    · rw [List.getElem?_append_right (Nat.le_of_not_lt inside)] at found
      have is_blank := blank batch (List.mem_of_getElem? found)
      rw [Batch.isBlank, text_eq, not_blank] at is_blank
      contradiction
  none_blank batch member := delivered.none_blank batch (List.mem_append_left _ member)
  left_eq := delivered.left_eq
  repeated batch member := delivered.repeated batch (List.mem_append_left _ member)

end Delivered
end Deed

namespace Draft

/-- The draft is what became of the deeds so far, and `gathered` is pending. -/
structure Records (draft : Draft) (deeds : List Deed) (gathered : List Char) : Prop where
  delivered : Deed.Delivered deeds draft.batches.toList draft.preamble
  length_eq : draft.batches.toList.length = deeds.countP Deed.isClosing
  text_eq : draft.pending.text.toList = gathered
  tracked : draft.pending.Tracked

variable {draft after : Draft} {deeds : List Deed} {gathered : List Char} {repeatCount : Nat}

theorem Records.of_batches (recorded : draft.Records deeds gathered) {gathered' : List Char}
    (batches_eq : after.batches = draft.batches) (preamble_eq : after.preamble = draft.preamble)
    (text_eq : after.pending.text.toList = gathered') (tracked : after.pending.Tracked) :
    after.Records deeds gathered' where
  delivered := by
    rw [batches_eq, preamble_eq]
    exact recorded.delivered
  length_eq := by rw [batches_eq, recorded.length_eq]
  text_eq := text_eq
  tracked := tracked

theorem Records.announce (recorded : draft.Records deeds gathered) (message : String) :
    (draft.announce message).Records (deeds ++ [.records message]) gathered where
  delivered := recorded.delivered.records message
  length_eq := by
    rw [List.countP_append]
    exact recorded.length_eq
  text_eq := recorded.text_eq
  tracked := recorded.tracked

/-- A batch that is closed takes the messages that wait if it is not blank. -/
theorem Records.close (recorded : draft.Records deeds gathered) (repeated : 0 < repeatCount)
    (separator : Option Position) :
    Deed.Delivered (deeds ++ [.closes gathered])
      (draft.close repeatCount separator).batches.toList
      (draft.close repeatCount separator).preamble := by
  obtain ⟨delivered, length_eq, rfl, tracked⟩ := recorded
  unfold Draft.close
  cases region_eq : draft.pending.region? separator with
  | none =>
      obtain ⟨-, no_first, -⟩ := Pending.region?_eq_none_iff.mp region_eq
      have blank : Text.isBlankText draft.pending.text.toList = true := by
        rw [tracked no_first]
        rfl
      exact delivered.skips blank
  | some region =>
      dsimp only
      split
      · rename_i blank
        rw [Array.toList_push]
        exact (delivered.skips blank).with_silent rfl repeated
      · rename_i not_blank
        rw [Array.toList_push]
        exact delivered.closes length_eq (Bool.eq_false_iff.mpr not_blank) rfl rfl repeated

theorem Records.close_at (recorded : draft.Records deeds gathered) (repeated : 0 < repeatCount)
    (position : Position) :
    (draft.close repeatCount (some position)).Records (deeds ++ [.closes gathered]) [] where
  delivered := recorded.close repeated (some position)
  length_eq := by
    obtain ⟨batch, batches_eq⟩ := draft.close_at_separator repeatCount position
    rw [batches_eq, Array.toList_push, List.length_append, recorded.length_eq, List.countP_append]
    rfl
  text_eq := by
    rw [pending_close]
    rfl
  tracked _ := by rw [pending_close]

end Draft

namespace Build

variable {expansion : Expansion} {token : Token} {tokens : List Token} {draft after : Draft}
  {deeds past : List Deed} {gathered : List Char} {flow : Flow}

/-- The token neither asks for an include nor for a batch to be run no times. -/
def Regular (token : Token) : Prop :=
  token.kind.commandKind? ≠ some .includeFile ∧
    ∀ repeatCount, token.kind = .separator repeatCount → 0 < repeatCount

/-- The deeds of a script whose draft is `draft` before `tokens`. -/
def Promises (deeds : List Deed) (draft : Draft) (tokens : List Token) : Prop :=
  ∃ past gathered, draft.Records past gathered ∧
    past ++ Deed.ofTokens draft.bindings gathered tokens = deeds

/-- The same when a walk has come behind a token; at the end of a script all is delivered. -/
def PromisesAt (deeds : List Deed) : Flow → Draft → List Token → Prop
  | .goOn, draft, tokens => Promises deeds draft tokens
  | .stop, draft, _ => Deed.Delivered deeds draft.batches.toList draft.preamble

theorem promises_goOn (bindings_eq : after.bindings = draft.bindings.after token)
    (recorded : after.Records past gathered)
    (deeds_eq : past ++ Deed.ofTokens (draft.bindings.after token) gathered tokens = deeds) :
    Promises deeds after tokens :=
  ⟨past, gathered, recorded, by rw [bindings_eq, deeds_eq]⟩

/-- One token does what is promised for it, and promises the same. -/
theorem promises_accept (regular : Regular token)
    (accepted : accept expansion token draft = .ok (flow, after))
    (promised : Promises deeds draft (token :: tokens)) : PromisesAt deeds flow after tokens := by
  obtain ⟨not_include, repeated⟩ := regular
  have accepts := accepts_of_accept not_include accepted
  obtain ⟨bindings_eq, -⟩ := accepts.effect
  obtain ⟨past, gathered, recorded, rfl⟩ := promised
  cases accepts with
  | literal is_literal =>
      have text_eq : (draft.pending.appendLiteral token.start token.stop token.text).text.toList =
          gathered ++ token.contribution draft.bindings := by
        rw [← recorded.text_eq]
        exact Pending.toList_appendLiteral _ is_literal _
      refine promises_goOn bindings_eq (recorded.of_batches rfl rfl text_eq
        (Pending.tracked_contribute recorded.tracked _ _ _ _)) ?_
      rw [Deed.ofTokens_of_literal is_literal]
  | @value name value kind_eq value_eq =>
      have text_eq : (draft.pending.appendValue token.start token.stop value).text.toList =
          gathered ++ token.contribution draft.bindings := by
        rw [← recorded.text_eq]
        exact Pending.toList_appendValue _ kind_eq value_eq
      refine promises_goOn bindings_eq (recorded.of_batches rfl rfl text_eq
        (Pending.tracked_contribute recorded.tracked _ _ _ _)) ?_
      simp only [Deed.ofTokens, kind_eq]
  | @separator repeatCount kind_eq =>
      have closed := recorded.close_at (repeated repeatCount kind_eq) token.start
      refine promises_goOn bindings_eq closed ?_
      simp only [Deed.ofTokens, kind_eq, List.append_assoc, List.singleton_append]
  | list kind_eq name_eq =>
      refine promises_goOn bindings_eq (recorded.announce draft.pending.text) ?_
      simp only [Deed.ofTokens, kind_eq, name_eq, ← recorded.text_eq, String.ofList_toList,
        List.append_assoc, List.singleton_append]
  | listVar kind_eq name_eq =>
      refine promises_goOn bindings_eq (recorded.announce draft.bindings.listing) ?_
      simp only [Deed.ofTokens, kind_eq, name_eq, List.append_assoc, List.singleton_append]
  | reset kind_eq name_eq =>
      refine promises_goOn bindings_eq (recorded.of_batches rfl rfl rfl fun _ => rfl) ?_
      simp only [Deed.ofTokens, kind_eq, name_eq]
      rfl
  | quit kind_eq name_eq =>
      simp only [Deed.ofTokens, kind_eq, name_eq, List.append_nil]
      exact recorded.delivered
  | exit kind_eq name_eq =>
      simp only [Deed.ofTokens, kind_eq, name_eq]
      exact recorded.close Nat.one_pos none
  | setting kind_eq other _ pending_eq batches_eq preamble_eq =>
      refine promises_goOn bindings_eq (recorded.of_batches batches_eq preamble_eq
        (by rw [pending_eq, recorded.text_eq]) (by rw [pending_eq]; exact recorded.tracked)) ?_
      rw [Deed.ofTokens_of_setting kind_eq other]

end Build

/-- A separator of a file gives a count of at least one. -/
theorem Lexing.repeatCount_pos {file : SourceFile} {content : String} {tokens : List Token}
    (tokens_eq : tokenize file content = .ok tokens) :
    ∀ token ∈ tokens, ∀ repeatCount, token.kind = .separator repeatCount → 0 < repeatCount := by
  intro token member repeatCount kind_eq
  obtain ⟨before, after, emits, -⟩ := emits_of_tokenize tokens_eq member
  obtain ⟨behind, -, written⟩ := writtenAs_of_emits emits
  rw [kind_eq] at written
  obtain ⟨digits, -, count⟩ := written
  cases count with
  | absent => exact Nat.one_pos
  | given _ positive => exact positive

/-- What a script records is carried by its batches and trailing messages: each message by the
first batch that is closed behind it and is not blank, and by the trailing messages if there is
none. -/
theorem delivered_of_build {resolver : Resolver} {options : BuildOptions}
    {bindings : Variable.Table} {text : String} {script : Script}
    (built : build resolver options bindings text = .ok script) :
    ∃ tokens flat flow last, tokenize .script text = .ok tokens ∧
      Expands resolver bindings tokens flat flow last ∧
        Deed.Delivered (Deed.ofTokens bindings [] flat) script.batches.toList
          script.trailingMessages := by
  obtain ⟨tokens, tokens_eq, built_tokens⟩ := ok_of_bind built
  obtain ⟨⟨flow, draft⟩, walked, finished⟩ := ok_of_bind built_tokens
  obtain ⟨flat, expands, flat_walk⟩ := Build.expands_of_walk walked
  refine ⟨tokens, flat, flow, draft.bindings, tokens_eq, expands, ?_⟩
  have counted : ∀ token ∈ flat, ∀ repeatCount, token.kind = .separator repeatCount →
      0 < repeatCount := by
    refine expands.forall_mem (Lexing.repeatCount_pos tokens_eq) ?_
    rintro _ _ inside ⟨-, -, -, -, inside_eq⟩
    exact Lexing.repeatCount_pos inside_eq
  have regular : ∀ token ∈ flat, Build.Regular token :=
    fun token member => ⟨expands.not_include token member, counted token member⟩
  have begins : Build.Promises (Deed.ofTokens bindings [] flat) (Draft.start options bindings)
      flat := ⟨[], [], ⟨.nil, rfl, rfl, fun _ => rfl⟩, rfl⟩
  have refuse : Build.Expansion := fun _ _ draft => .ok (.goOn, draft)
  have promised := Build.walk_keeps (Build.PromisesAt (Deed.ofTokens bindings [] flat))
    Build.promises_accept id regular (flat_walk refuse) begins
  have of_finish {draft : Draft} (delivered : Deed.Delivered (Deed.ofTokens bindings [] flat)
      draft.batches.toList draft.preamble) :
      Deed.Delivered (Deed.ofTokens bindings [] flat) draft.finish.batches.toList
        draft.finish.trailingMessages := by
    obtain ⟨blanks, batches_eq, blank⟩ := draft.batches_finish
    rw [batches_eq] at delivered
    exact delivered.without_blanks blank
  cases flow with
  | goOn =>
      obtain rfl := Except.ok.inj finished
      obtain ⟨past, gathered, recorded, deeds_eq⟩ := promised
      refine of_finish ?_
      rw [← deeds_eq]
      exact recorded.close Nat.one_pos none
  | stop =>
      obtain rfl := Except.ok.inj finished
      exact of_finish promised

end SqlScript
