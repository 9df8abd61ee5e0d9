import SqlScript.Proofs.Text.Run
import SqlScript.Proofs.Text.Trim
import SqlScript.Token.Lexeme

/-!
# The grammar of separators and commands

What makes a text begin with a separator line or a command line is said here without regard to how
lines are scanned.  `Lexeme.directive?_eq_some_iff` states that the scan recognizes exactly these
lines.
-/

namespace SqlScript

/-- Behind this point nothing stands on the line but a comment. -/
inductive LineEnds : List Char → Prop
  | text : LineEnds []
  | line {rest : List Char} : LineEnds ('\n' :: rest)
  | comment {rest : List Char} : LineEnds ('-' :: '-' :: rest)

/-- A text begins with a line that closes a batch: `GO` in any case, and a row of digits if there is
one.  `written` is what the separator consists of. -/
inductive SeparatorLine : (source written digits : List Char) → Prop
  | uncounted {g o : Char} {gap behind : List Char} :
      Text.equalsIgnoringCase [g, o] ['g', 'o'] = true → (∀ c ∈ gap, Lexeme.isIndent c = true) →
        LineEnds behind → SeparatorLine (g :: o :: (gap ++ behind)) [g, o] []
  /-- The count stands apart from the word. -/
  | counted {g o : Char} {gap digits pad behind : List Char} :
      Text.equalsIgnoringCase [g, o] ['g', 'o'] = true → gap ≠ [] →
        (∀ c ∈ gap, Lexeme.isIndent c = true) → digits ≠ [] →
          (∀ c ∈ digits, c.isDigit = true) → (∀ c ∈ pad, Lexeme.isIndent c = true) →
            LineEnds behind →
              SeparatorLine (g :: o :: (gap ++ (digits ++ (pad ++ behind))))
                (g :: o :: (gap ++ digits)) digits

/-- The repeat count that a row of digits gives, which is one if there are none. -/
inductive RepeatCount : (digits : List Char) → Nat → Prop
  | absent : RepeatCount [] 1
  | given {digits : List Char} : digits ≠ [] → 0 < Text.decimalValue digits →
      Text.decimalValue digits ≤ UInt32.size - 1 → RepeatCount digits (Text.decimalValue digits)

/-- A row of digits gives zero or more than thirty-two bits can hold. -/
def InvalidCount (digits : List Char) : Prop :=
  digits ≠ [] ∧ (Text.decimalValue digits = 0 ∨ UInt32.size - 1 < Text.decimalValue digits)

theorem RepeatCount.unique {digits : List Char} {n m : Nat} (count : RepeatCount digits n)
    (count' : RepeatCount digits m) : n = m := by
  cases count <;> cases count' <;> first | rfl | contradiction

theorem RepeatCount.not_invalid {digits : List Char} {n : Nat} (count : RepeatCount digits n) :
    ¬InvalidCount digits := by
  rintro ⟨digits_ne, zero | large⟩ <;> cases count
  · contradiction
  · omega
  · contradiction
  · omega

/-- The name of a command behind its colon: the longest word, or the words `on` and `error`. -/
inductive CommandName : (behind name rest : List Char) → CommandKind → Prop
  | word {behind name rest : List Char} {kind : CommandKind} :
      Text.Run Text.isWordCharacter behind name rest → kind ≠ .onError →
        Text.lowercase name = kind.name.toList → CommandName behind name rest kind
  | onError {behind on gap object afterOn afterGap rest : List Char} :
      Text.Run Text.isWordCharacter behind on afterOn → Text.lowercase on = "on".toList →
        Text.Run Lexeme.isIndent afterOn gap afterGap → gap ≠ [] →
          Text.Run Text.isWordCharacter afterGap object rest →
            Text.lowercase object = "error".toList →
              CommandName behind (on ++ gap ++ object) rest .onError

/-- The name behind a colon, as it is reported, if it names no command. -/
inductive UnknownName : (behind name : List Char) → Prop
  | word {behind name rest : List Char} :
      Text.Run Text.isWordCharacter behind name rest → Text.lowercase name ≠ "on".toList →
        (∀ kind, kind ≠ CommandKind.onError → Text.lowercase name ≠ kind.name.toList) →
          UnknownName behind name
  /-- The word `on` without another word. -/
  | onAlone {behind on gap afterOn afterGap : List Char} :
      Text.Run Text.isWordCharacter behind on afterOn → Text.lowercase on = "on".toList →
        Text.Run Lexeme.isIndent afterOn gap afterGap →
          (∀ c ∈ afterGap.head?, Text.isWordCharacter c = false) → UnknownName behind on
  /-- The word `on` with a word other than `error`. -/
  | onOther {behind on gap object afterOn afterGap rest : List Char} :
      Text.Run Text.isWordCharacter behind on afterOn → Text.lowercase on = "on".toList →
        Text.Run Lexeme.isIndent afterOn gap afterGap →
          Text.Run Text.isWordCharacter afterGap object rest → object ≠ [] →
            Text.lowercase object ≠ "error".toList → UnknownName behind (on ++ ' ' :: object)

/-- A text begins with a colon and an ASCII letter. -/
inductive ColonLetter : (source behind : List Char) → Prop
  | intro {letter : Char} {rest : List Char} :
      letter.isAlpha = true → ColonLetter (':' :: letter :: rest) (letter :: rest)

/-- A text begins with the line `line`, which is a command of the given kind. -/
structure CommandLine (source line : List Char) (kind : CommandKind) : Prop where
  name : ∃ behind name rest, ColonLetter source behind ∧ CommandName behind name rest kind
  /-- The line goes on to the next line feed or to the end of the text. -/
  line : ∃ rest, Text.Run Lexeme.isInLine source line rest

/-- A text begins with a command line whose name is unknown. -/
def UnknownCommandLine (source name : List Char) : Prop :=
  ∃ behind, ColonLetter source behind ∧ UnknownName behind name

theorem ColonLetter.source_eq {source behind : List Char} (colon : ColonLetter source behind) :
    source = ':' :: behind := by
  cases colon
  rfl

namespace LineEnds

theorem iff_endsLine (behind : List Char) : LineEnds behind ↔ Lexeme.endsLine behind = true := by
  constructor
  · rintro (_ | _ | _) <;> simp [Lexeme.endsLine, Lexeme.startsLineComment]
  · intro ends
    cases behind with
    | nil => exact .text
    | cons c rest =>
        simp only [Lexeme.endsLine, Bool.or_eq_true, beq_iff_eq] at ends
        rcases ends with rfl | comment
        · exact .line
        · unfold Lexeme.startsLineComment at comment
          split at comment
          · rename_i tail list_eq
            rw [list_eq]
            exact .comment
          · contradiction

theorem not_isIndent {behind : List Char} (ends : LineEnds behind) :
    ∀ c ∈ behind.head?, Lexeme.isIndent c = false := by
  cases ends <;> simp [Lexeme.isIndent]

theorem not_isDigit {behind : List Char} (ends : LineEnds behind) :
    ∀ c ∈ behind.head?, c.isDigit = false := by
  cases ends <;> simp [Char.isDigit]

end LineEnds

theorem not_isDigit_of_isIndent {c : Char} (indent : Lexeme.isIndent c = true) :
    c.isDigit = false := by
  simp only [Lexeme.isIndent, Bool.or_eq_true, beq_iff_eq] at indent
  rcases indent with (rfl | rfl) | rfl <;> decide

theorem not_isIndent_of_isDigit {c : Char} (digit : c.isDigit = true) :
    Lexeme.isIndent c = false := by
  refine Bool.eq_false_iff.mpr fun indent => ?_
  simp [not_isDigit_of_isIndent indent] at digit

/-- The head of a joined text comes from its first part that is not empty. -/
theorem forall_head?_append {p : Char → Prop} {front back : List Char}
    (in_front : ∀ c ∈ front, p c) (in_back : front = [] → ∀ c ∈ back.head?, p c) :
    ∀ c ∈ (front ++ back).head?, p c := by
  cases front with
  | nil => simpa using in_back rfl
  | cons first rest =>
      intro c head
      obtain rfl : first = c := by simpa using head
      exact in_front first (by simp)

namespace Lexeme

theorem stands_apart_of_ends {gap behind : List Char} (gap_indent : ∀ c ∈ gap, isIndent c = true)
    (ends : gap = [] → LineEnds behind) :
    (endsLine (gap ++ behind) || (gap ++ behind).head?.any isIndent) = true := by
  cases gap with
  | nil => simp [(LineEnds.iff_endsLine behind).mp (ends rfl)]
  | cons c gap => simp [gap_indent c (by simp)]

theorem count_in_range_iff (value : Nat) :
    (0 < value && value ≤ maxRepeatCount) = true ↔ 0 < value ∧ value ≤ UInt32.size - 1 := by
  rw [Bool.and_eq_true, decide_eq_true_iff, decide_eq_true_iff]
  rfl

theorem separator?_of_line {source written digits : List Char}
    (line : SeparatorLine source written digits) :
    (∃ n rest, RepeatCount digits n ∧ written ++ rest = source ∧
        separator? source =
          some (.ok { form := .separator n, text := written, rest, freshLine := false })) ∨
      InvalidCount digits ∧
        separator? source = some (.error (.invalidRepeatCount (String.ofList digits))) := by
  cases line with
  | @uncounted g o gap behind word gap_indent ends =>
      have gap_run : Text.Run isIndent (gap ++ behind) gap behind :=
        ⟨rfl, gap_indent, ends.not_isIndent⟩
      have no_digits : Text.Run Char.isDigit behind [] behind := ⟨rfl, by simp, ends.not_isDigit⟩
      have no_pad : Text.Run isIndent behind [] behind := ⟨rfl, by simp, ends.not_isIndent⟩
      refine .inl ⟨1, gap ++ behind, .absent, rfl, ?_⟩
      simp only [separator?, word, stands_apart_of_ends gap_indent fun _ => ends, Bool.and_self,
        if_true, gap_run.dropWhile_eq, no_digits.takeWhile_eq, no_digits.dropWhile_eq,
        no_pad.dropWhile_eq, (LineEnds.iff_endsLine behind).mp ends, List.isEmpty_nil]
  | @counted g o gap digits pad behind word gap_ne gap_indent digits_ne digits_digit pad_indent
      ends =>
      have pad_run : Text.Run isIndent (pad ++ behind) pad behind :=
        ⟨rfl, pad_indent, ends.not_isIndent⟩
      have digits_run : Text.Run Char.isDigit (digits ++ (pad ++ behind)) digits (pad ++ behind) :=
        ⟨rfl, digits_digit, forall_head?_append
          (fun c member => not_isDigit_of_isIndent (pad_indent c member))
          (fun _ => ends.not_isDigit)⟩
      have gap_run : Text.Run isIndent (gap ++ (digits ++ (pad ++ behind))) gap
          (digits ++ (pad ++ behind)) :=
        ⟨rfl, gap_indent, forall_head?_append
          (fun c member => not_isIndent_of_isDigit (digits_digit c member))
          (fun none => (digits_ne none).elim)⟩
      have found : separator? (g :: o :: (gap ++ (digits ++ (pad ++ behind)))) =
          if 0 < Text.decimalValue digits && Text.decimalValue digits ≤ maxRepeatCount then
            some (.ok {
              form := .separator (Text.decimalValue digits), text := g :: o :: (gap ++ digits)
              rest := pad ++ behind, freshLine := false })
          else some (.error (.invalidRepeatCount (String.ofList digits))) := by
        simp only [separator?, word, stands_apart_of_ends gap_indent fun none => (gap_ne none).elim,
          Bool.and_self, if_true, gap_run.takeWhile_eq, gap_run.dropWhile_eq,
          digits_run.takeWhile_eq, digits_run.dropWhile_eq, pad_run.dropWhile_eq,
          (LineEnds.iff_endsLine behind).mp ends, List.isEmpty_iff, digits_ne, if_false]
      by_cases in_range : 0 < Text.decimalValue digits ∧ Text.decimalValue digits ≤ UInt32.size - 1
      · refine .inl ⟨_, pad ++ behind, .given digits_ne in_range.1 in_range.2, by simp, ?_⟩
        rw [found, if_pos ((count_in_range_iff _).mpr in_range)]
      · refine .inr ⟨⟨digits_ne, by omega⟩, ?_⟩
        rw [found, if_neg fun test => in_range ((count_in_range_iff _).mp test)]

theorem line_of_separator? {source : List Char} {found : Except ParseCause Lexeme}
    (scanned : separator? source = some found) :
    ∃ written digits, SeparatorLine source written digits := by
  unfold separator? at scanned
  split at scanned
  · rename_i g o behind
    simp only at scanned
    split at scanned <;> try contradiction
    rename_i begins
    split at scanned <;> try contradiction
    rename_i ends
    obtain ⟨word, apart⟩ := Bool.and_eq_true_iff.mp begins
    have gap := Text.run_takeWhile isIndent behind
    have digits := Text.run_takeWhile Char.isDigit (behind.dropWhile isIndent)
    have pad := Text.run_takeWhile isIndent ((behind.dropWhile isIndent).dropWhile Char.isDigit)
    have line_ends := (LineEnds.iff_endsLine _).mpr ends
    by_cases no_digits : (behind.dropWhile isIndent).takeWhile Char.isDigit = []
    · have parts := SeparatorLine.uncounted word
        (List.forall_mem_append.mpr ⟨gap.inside, pad.inside⟩) line_ends
      rw [List.append_assoc, pad.append_eq, ← List.nil_append (List.dropWhile _ _), ← no_digits,
        digits.append_eq, gap.append_eq] at parts
      exact ⟨_, _, parts⟩
    · have gap_ne : behind.takeWhile isIndent ≠ [] := by
        intro no_gap
        have starts_with_digit : ∀ c ∈ behind.head?, c.isDigit = true := by
          rw [← gap.append_eq, no_gap, List.nil_append, ← digits.append_eq]
          exact forall_head?_append digits.inside fun none => (no_digits none).elim
        cases behind with
        | nil => exact no_digits rfl
        | cons c rest =>
            have digit := starts_with_digit c rfl
            rcases Bool.or_eq_true_iff.mp apart with line_end | indent
            · have no_digit := ((LineEnds.iff_endsLine _).mpr line_end).not_isDigit c rfl
              simp [digit] at no_digit
            · have no_digit := not_isDigit_of_isIndent (c := c) (by simpa using indent)
              simp [digit] at no_digit
      have parts := SeparatorLine.counted word gap_ne gap.inside no_digits digits.inside pad.inside
        line_ends
      rw [pad.append_eq, digits.append_eq, gap.append_eq] at parts
      exact ⟨_, _, parts⟩
  · contradiction

end Lexeme

namespace CommandKind

theorem name_injective {kind other : CommandKind} (same : kind.name.toList = other.name.toList) :
    kind = other := by
  revert same
  cases kind <;> cases other <;> decide

theorem mem_singleWord_iff (kind : CommandKind) : kind ∈ singleWord ↔ kind ≠ .onError := by
  cases kind <;> decide

theorem name_ne_on (kind : CommandKind) : kind.name.toList ≠ "on".toList := by
  cases kind <;> decide

theorem spelled_of_ofName? {word : List Char} {kind : CommandKind}
    (found : ofName? word = some kind) :
    kind ≠ .onError ∧ Text.lowercase word = kind.name.toList := by
  unfold ofName? at found
  have spelled := List.find?_some found
  exact ⟨(mem_singleWord_iff kind).mp (List.mem_of_find?_eq_some found),
    (beq_iff_eq.mp spelled).symm⟩

theorem ofName?_of_spelled {word : List Char} {kind : CommandKind} (kind_ne : kind ≠ .onError)
    (word_eq : Text.lowercase word = kind.name.toList) : ofName? word = some kind := by
  cases found : ofName? word with
  | none =>
      have unequal := List.find?_eq_none.mp found kind ((mem_singleWord_iff kind).mpr kind_ne)
      simp [word_eq] at unequal
  | some other =>
      have other_eq := (spelled_of_ofName? found).2
      rw [name_injective (other_eq.symm.trans word_eq)]

end CommandKind

namespace Lexeme

theorem commandFrom_of_name {behind name rest : List Char} {kind : CommandKind}
    (known : CommandName behind name rest kind) :
    commandFrom behind = .ok (commandLine kind (':' :: name) rest) := by
  cases known with
  | word run kind_ne name_eq =>
      have not_on : Text.equalsIgnoringCase name ['o', 'n'] = false := by
        have ne_on := kind.name_ne_on
        rw [← name_eq] at ne_on
        exact beq_eq_false_iff_ne.mpr ne_on
      have named := CommandKind.ofName?_of_spelled kind_ne name_eq
      simp [commandFrom, run.takeWhile_eq, run.dropWhile_eq, not_on, named]
  | @onError on gap object afterOn afterGap _ on_run on_eq gap_run _ object_run object_eq =>
      have is_on : Text.equalsIgnoringCase on ['o', 'n'] = true := beq_iff_eq.mpr on_eq
      have is_error : Text.equalsIgnoringCase object ['e', 'r', 'r', 'o', 'r'] = true :=
        beq_iff_eq.mpr object_eq
      simp [commandFrom, on_run.takeWhile_eq, on_run.dropWhile_eq, gap_run.takeWhile_eq,
        gap_run.dropWhile_eq, object_run.takeWhile_eq, object_run.dropWhile_eq, is_on, is_error]

theorem last_not_isBlank {word : List Char} (inside : ∀ c ∈ word, Text.isWordCharacter c = true) :
    ∀ c ∈ word.getLast?, Text.isBlank c = false :=
  fun c last => Text.not_isBlank_of_isWordCharacter (inside c (List.mem_of_getLast? last))

theorem commandFrom_of_unknown {behind name : List Char} (unknown : UnknownName behind name) :
    commandFrom behind = .error (.unknownCommand (String.ofList name)) := by
  cases unknown with
  | word run not_on no_kind =>
      have is_not_on : Text.equalsIgnoringCase name ['o', 'n'] = false :=
        beq_eq_false_iff_ne.mpr not_on
      have unnamed : CommandKind.ofName? name = none := by
        cases found : CommandKind.ofName? name with
        | none => rfl
        | some kind =>
            obtain ⟨kind_ne, name_eq⟩ := CommandKind.spelled_of_ofName? found
            exact (no_kind kind kind_ne name_eq).elim
      simp [commandFrom, run.takeWhile_eq, is_not_on, unnamed]
  | @onAlone _ gap afterOn afterGap on_run on_eq gap_run boundary =>
      have is_on : Text.equalsIgnoringCase name ['o', 'n'] = true := beq_iff_eq.mpr on_eq
      have no_object : Text.Run Text.isWordCharacter afterGap [] afterGap :=
        ⟨rfl, by simp, boundary⟩
      have not_error : Text.equalsIgnoringCase [] ['e', 'r', 'r', 'o', 'r'] = false := rfl
      have trimmed : Text.trimRight (name ++ [' ']) = name := by
        rw [Text.trimRight_append_of_blank name (by decide),
          Text.trimRight_eq_self (last_not_isBlank on_run.inside)]
      simp [commandFrom, on_run.takeWhile_eq, on_run.dropWhile_eq, gap_run.dropWhile_eq,
        no_object.takeWhile_eq, is_on, not_error, trimmed]
  | @onOther on gap object afterOn afterGap rest on_run on_eq gap_run object_run object_ne
      not_error =>
      have is_on : Text.equalsIgnoringCase on ['o', 'n'] = true := beq_iff_eq.mpr on_eq
      have is_not_error : Text.equalsIgnoringCase object ['e', 'r', 'r', 'o', 'r'] = false :=
        beq_eq_false_iff_ne.mpr not_error
      have trimmed : Text.trimRight (on ++ ' ' :: object) = on ++ ' ' :: object := by
        refine Text.trimRight_eq_self fun c last => last_not_isBlank object_run.inside c ?_
        rcases List.eq_nil_or_concat object with rfl | ⟨front, d, rfl⟩
        · exact (object_ne rfl).elim
        · rw [List.concat_eq_append, ← List.cons_append, ← List.append_assoc,
            List.getLast?_concat] at last
          simpa using last
      simp [commandFrom, on_run.takeWhile_eq, on_run.dropWhile_eq, gap_run.dropWhile_eq,
        object_run.takeWhile_eq, is_on, is_not_error, trimmed]

/-- Behind a colon stands a name that is known or one that is not. -/
theorem commandName_or_unknownName (behind : List Char) :
    (∃ name rest kind, CommandName behind name rest kind) ∨ ∃ name, UnknownName behind name := by
  have on_run := Text.run_takeWhile Text.isWordCharacter behind
  have gap_run := Text.run_takeWhile isIndent (behind.dropWhile Text.isWordCharacter)
  have object_run := Text.run_takeWhile Text.isWordCharacter
    ((behind.dropWhile Text.isWordCharacter).dropWhile isIndent)
  have no_word_behind_word :
      (behind.dropWhile Text.isWordCharacter).takeWhile Text.isWordCharacter = [] :=
    Text.Run.takeWhile_eq ⟨rfl, by simp, on_run.boundary⟩
  by_cases on_eq : Text.lowercase (behind.takeWhile Text.isWordCharacter) = "on".toList
  · by_cases object_eq : Text.lowercase
        (((behind.dropWhile Text.isWordCharacter).dropWhile isIndent).takeWhile
          Text.isWordCharacter) = "error".toList
    · refine .inl ⟨_, _, _, .onError on_run on_eq gap_run ?_ object_run object_eq⟩
      intro no_gap
      have same := gap_run.append_eq
      rw [no_gap, List.nil_append] at same
      rw [same, no_word_behind_word] at object_eq
      simp [Text.lowercase] at object_eq
    · by_cases object_eq_nil :
          ((behind.dropWhile Text.isWordCharacter).dropWhile isIndent).takeWhile
            Text.isWordCharacter = []
      · refine .inr ⟨_, .onAlone on_run on_eq gap_run ?_⟩
        rw [object_eq_nil] at object_run
        simpa using object_run.append_eq ▸ object_run.boundary
      · exact .inr ⟨_, .onOther on_run on_eq gap_run object_run object_eq_nil object_eq⟩
  · by_cases named : ∃ kind, kind ≠ CommandKind.onError ∧
        Text.lowercase (behind.takeWhile Text.isWordCharacter) = kind.name.toList
    · obtain ⟨kind, kind_ne, name_eq⟩ := named
      exact .inl ⟨_, _, kind, .word on_run kind_ne name_eq⟩
    · exact .inr ⟨_, .word on_run on_eq fun kind kind_ne name_eq => named ⟨kind, kind_ne, name_eq⟩⟩

theorem isInLine_of_isWordCharacter {c : Char} (word : Text.isWordCharacter c = true) :
    isInLine c = true := by
  have not_blank := Text.not_isBlank_of_isWordCharacter word
  refine bne_iff_ne.mpr fun c_eq => ?_
  rw [c_eq] at not_blank
  exact absurd not_blank (by decide)

theorem isInLine_of_isIndent {c : Char} (indent : isIndent c = true) : isInLine c = true := by
  simp only [isIndent, Bool.or_eq_true, beq_iff_eq] at indent
  rcases indent with (rfl | rfl) | rfl <;> decide

theorem append_of_commandName {behind name rest : List Char} {kind : CommandKind}
    (known : CommandName behind name rest kind) : name ++ rest = behind := by
  cases known with
  | word run => exact run.append_eq
  | onError on_run _ gap_run _ object_run =>
      rw [List.append_assoc, List.append_assoc, object_run.append_eq, gap_run.append_eq,
        on_run.append_eq]

theorem isInLine_of_commandName {behind name rest : List Char} {kind : CommandKind}
    (known : CommandName behind name rest kind) : ∀ c ∈ name, isInLine c = true := by
  cases known with
  | word run => exact fun c member => isInLine_of_isWordCharacter (run.inside c member)
  | onError on_run _ gap_run _ object_run =>
      simp only [List.forall_mem_append]
      exact ⟨⟨fun c member => isInLine_of_isWordCharacter (on_run.inside c member),
        fun c member => isInLine_of_isIndent (gap_run.inside c member)⟩,
        fun c member => isInLine_of_isWordCharacter (object_run.inside c member)⟩

/-- A command takes its line and nothing else. -/
theorem run_commandLine {behind name rest : List Char} {kind : CommandKind}
    (known : CommandName behind name rest kind) :
    Text.Run isInLine (':' :: behind) (commandLine kind (':' :: name) rest).text
      (commandLine kind (':' :: name) rest).rest where
  append_eq := by
    rw [← append_of_commandName known]
    exact (commandLine_splits kind (':' :: name) rest (by simp)).1
  inside := by
    simp only [commandLine, List.forall_mem_append, List.forall_mem_cons]
    exact ⟨⟨⟨by decide, isInLine_of_commandName known⟩,
      fun c member => isInLine_of_isIndent ((Text.run_takeWhile isIndent rest).inside c member)⟩,
      (Text.run_takeWhile isInLine _).inside⟩
  boundary := (Text.run_takeWhile isInLine _).boundary

theorem directive?_of_colonLetter {source behind : List Char} (colon : ColonLetter source behind) :
    directive? source = some (commandFrom behind) := by
  cases colon with
  | intro letter => simp [directive?, letter]

theorem directive?_of_separatorLine {source written digits : List Char}
    (line : SeparatorLine source written digits) : directive? source = separator? source := by
  have not_colon (o : Char) : Text.equalsIgnoringCase [':', o] ['g', 'o'] ≠ true := by
    simp [Text.equalsIgnoringCase, Text.lowercase]
  unfold directive?
  split
  · cases line with
    | uncounted word => exact (not_colon _ word).elim
    | counted word => exact (not_colon _ word).elim
  · rfl

theorem line_of_directive? {source : List Char} {found : Except ParseCause Lexeme}
    (scanned : directive? source = some found) :
    (∃ written digits, SeparatorLine source written digits) ∨
      ∃ behind, ColonLetter source behind := by
  unfold directive? at scanned
  split at scanned
  · rename_i behind
    split at scanned
    · rename_i letter
      cases behind with
      | nil => simp at letter
      | cons c rest => exact .inr ⟨_, .intro (by simpa using letter)⟩
    · contradiction
  · exact .inl (line_of_separator? scanned)

/-- What may be found where a line begins. -/
inductive Directive : (source : List Char) → Except ParseCause Lexeme → Prop
  | separator {source written digits rest : List Char} {n : Nat} :
      SeparatorLine source written digits → RepeatCount digits n → written ++ rest = source →
        Directive source (.ok { form := .separator n, text := written, rest, freshLine := false })
  | invalidCount {source written digits : List Char} :
      SeparatorLine source written digits → InvalidCount digits →
        Directive source (.error (.invalidRepeatCount (String.ofList digits)))
  | command {source behind name rest : List Char} {kind : CommandKind} :
      ColonLetter source behind → CommandName behind name rest kind →
        Directive source (.ok (commandLine kind (':' :: name) rest))
  | unknownCommand {source behind name : List Char} :
      ColonLetter source behind → UnknownName behind name →
        Directive source (.error (.unknownCommand (String.ofList name)))

theorem directive_of_directive? {source : List Char} {found : Except ParseCause Lexeme}
    (scanned : directive? source = some found) : Directive source found := by
  rcases line_of_directive? scanned with ⟨written, digits, line⟩ | ⟨behind, colon⟩
  · rw [directive?_of_separatorLine line] at scanned
    rcases separator?_of_line line with ⟨n, rest, count, append_eq, found_eq⟩ | ⟨invalid, found_eq⟩
    · cases found_eq.symm.trans scanned
      exact .separator line count append_eq
    · cases found_eq.symm.trans scanned
      exact .invalidCount line invalid
  · rw [directive?_of_colonLetter colon, Option.some.injEq] at scanned
    rcases commandName_or_unknownName behind with ⟨name, rest, kind, known⟩ | ⟨name, unknown⟩
    · rw [← scanned, commandFrom_of_name known]
      exact .command colon known
    · rw [← scanned, commandFrom_of_unknown unknown]
      exact .unknownCommand colon unknown

theorem directive?_of_directive {source : List Char} {found : Except ParseCause Lexeme}
    (directive : Directive source found) : directive? source = some found := by
  cases directive with
  | separator line count append_eq =>
      rw [directive?_of_separatorLine line]
      rcases separator?_of_line line with ⟨m, rest, count', append_eq', found_eq⟩ | ⟨invalid, -⟩
      · obtain rfl := count.unique count'
        obtain rfl := List.append_cancel_left (append_eq.trans append_eq'.symm)
        exact found_eq
      · exact (count.not_invalid invalid).elim
  | invalidCount line invalid =>
      rw [directive?_of_separatorLine line]
      rcases separator?_of_line line with ⟨m, -, count, -⟩ | ⟨-, found_eq⟩
      · exact (count.not_invalid invalid).elim
      · exact found_eq
  | command colon known =>
      rw [directive?_of_colonLetter colon, commandFrom_of_name known]
  | unknownCommand colon unknown =>
      rw [directive?_of_colonLetter colon, commandFrom_of_unknown unknown]

/-- Scanning for a separator or a command finds what the grammar says, and fails as it says. -/
theorem directive?_eq_some_iff {source : List Char} {found : Except ParseCause Lexeme} :
    directive? source = some found ↔ Directive source found :=
  ⟨directive_of_directive?, directive?_of_directive⟩

end Lexeme
end SqlScript
