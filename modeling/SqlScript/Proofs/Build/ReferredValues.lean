import SqlScript.Proofs.Build.Continuation
import SqlScript.Proofs.Build.QuotedArguments

/-!
# Values of variables in arguments

A command whose argument is a reference in quotes receives the value of the variable.  An assignment
takes away the quotes before it looks up the value, and receives the value as it is.  The other
commands look it up first, and read the value as if it had been written between the quotes: two
quotes that stand side by side in it become one (`values_of_arguments`).
-/

namespace SqlScript
namespace Command

/-- A reference to a variable. -/
def reference (name : List Char) : List Char :=
  '$' :: '(' :: (name ++ [')'])

/-- A text without quotes is quoted as it is. -/
theorem doubleQuotes_eq_self {text : List Char} (unquoted : '"' ∉ text) :
    doubleQuotes text = text := by
  induction text with
  | nil => rfl
  | cons c text ih =>
      obtain ⟨c_ne, unquoted⟩ := not_or.mp (mt List.mem_cons.mpr unquoted)
      rw [doubleQuotes_cons text (Ne.symm c_ne), ih unquoted]

theorem length_collapseQuotes_le (text : List Char) :
    (collapseQuotes text).length ≤ text.length := by
  fun_induction collapseQuotes text with
  | case1 => exact Nat.le_refl _
  | case2 rest ih =>
      simp only [List.length_cons]
      omega
  | case3 c rest _ ih => exact Nat.succ_le_succ ih

/-- Quotes are only lost where two of them stand side by side. -/
theorem collapseQuotes_eq_self_iff {text : List Char} :
    collapseQuotes text = text ↔ ¬['"', '"'] <:+: text := by
  fun_induction collapseQuotes text with
  | case1 => simp
  | case2 rest ih =>
      have shorter := length_collapseQuotes_le rest
      have doubled : ['"', '"'] <:+: '"' :: '"' :: rest := (List.prefix_append _ rest).isInfix
      refine ⟨fun same => ?_, fun not_doubled => (not_doubled doubled).elim⟩
      have lengths := congrArg List.length same
      simp only [List.length_cons] at lengths
      omega
  | case3 c rest not_doubled ih =>
      have apart : ¬['"', '"'] <+: c :: rest := by
        rintro ⟨behind, parts⟩
        obtain ⟨rfl, rest_eq⟩ := List.cons.inj parts
        exact not_doubled behind rfl rest_eq.symm
      rw [List.infix_cons_iff, or_iff_right apart, ← ih]
      simp

theorem collapseQuotes_ne_nil {text : List Char} (text_ne : text ≠ []) :
    collapseQuotes text ≠ [] := by
  fun_cases collapseQuotes text <;> simp_all

/-- What is received instead of a value that is read as if it had been written between quotes. -/
def received (value : String) : String :=
  String.ofList (collapseQuotes value.toList)

variable {command : Command} {bindings : Variable.Table} {name : List Char} {value : String}

theorem unquoted_reference (is_name : Variable.isName name = true) : '"' ∉ reference name := by
  intro member
  simp only [reference, List.mem_cons, List.mem_append] at member
  have in_name : '"' ∈ name := by simpa using member
  exact absurd (Variable.isNamePart_of_isName is_name '"' in_name) (by decide)

theorem one_line_reference (is_name : Variable.isName name = true) : '\n' ∉ reference name := by
  intro member
  simp only [reference, List.mem_cons, List.mem_append] at member
  have in_name : '\n' ∈ name := by simpa using member
  exact absurd (Variable.isNamePart_of_isName is_name '\n' in_name) (by decide)

theorem plain_of_length {text : List Char} (short : text.length < 2) : Variable.Plain text :=
  fun reference => absurd reference.length_le (by simpa using short)

/-- The value takes the place of a reference and of nothing else. -/
theorem substitute_reference (refers : bindings.Refers name value) {before : List Char}
    (plain_before : Variable.Plain before) {after : List Char} (plain_after : Variable.Plain after)
    (position : Position) :
    bindings.substitute position (before ++ (reference name ++ after)) =
      .ok (before ++ (value.toList ++ after)) := by
  have closed : ')' ∉ name := fun member =>
    absurd (Variable.isNamePart_of_isName refers.1 ')' member) (by decide)
  have link := @Variable.Table.substitute_link bindings position { before, name } value after
    plain_before closed refers
  rw [bindings.substitute_eq_self _ plain_after] at link
  simpa [Variable.Link.written, reference, Except.map] using link

/-- A value takes the place of its reference before the quotes are taken away. -/
theorem requiredArgument_of_reference (missing : String)
    (arguments_eq : command.arguments = String.ofList (inQuotes (reference name)))
    (refers : bindings.Refers name value) (value_ne : value ≠ "") :
    command.requiredArgument bindings missing = .ok (received value) := by
  have trimmed : Text.Trimmed ('"' :: (value.toList ++ ['"'])) :=
    { first := ⟨'"', rfl, by decide⟩
      last := by
        rw [← List.cons_append, List.getLast?_concat]
        rintro c ⟨⟩
        decide }
  have collapsed_ne : collapseQuotes value.toList ≠ [] :=
    collapseQuotes_ne_nil (by simpa using value_ne)
  have substituted : bindings.substitute command.argumentsStart
      ('"' :: (reference name ++ ['"'])) = .ok ('"' :: (value.toList ++ ['"'])) :=
    @substitute_reference bindings name value refers ['"'] (plain_of_length (by simp)) ['"']
      (plain_of_length (by simp)) command.argumentsStart
  rw [requiredArgument, arguments_eq, String.toList_ofList, inQuotes,
    doubleQuotes_eq_self (unquoted_reference refers.1), substituted]
  dsimp only [bind, Except.bind]
  rw [trimmed.trim_eq, unquote, List.getLast?_concat, if_pos rfl, List.dropLast_concat]
  split
  · contradiction
  · rfl

/-- The quotes are taken away before a value takes the place of its reference. -/
theorem assignment_of_reference {target : List Char}
    (arguments_eq : command.arguments =
      String.ofList (target ++ ' ' :: inQuotes (reference name)))
    (is_name : Variable.isName target = true) (refers : bindings.Refers name value) :
    command.assignment bindings = .ok (String.ofList target, some value) := by
  have substituted : bindings.substitute command.argumentsStart ([] ++ (reference name ++ [])) =
      .ok ([] ++ (value.toList ++ [])) :=
    substitute_reference refers (plain_of_length (by simp)) (plain_of_length (by simp)) _
  simp only [List.nil_append, List.append_nil] at substituted
  rw [assignment_substitute bindings arguments_eq is_name, substituted, Except.map,
    String.ofList_toList]

end Command
/-- A command whose argument is a reference in quotes, on a line of its own anywhere in a script,
receives the value that the variable has there.  An assignment receives it as it is.  A target is
recorded, by the script that is built too, and a file is looked for as it is unless two quotes stand
side by side in it, of which one is lost. -/
theorem values_of_arguments (resolver : Resolver) (options : BuildOptions)
    (bindings : Variable.Table) {front : String} {tokens : List Token} {draft : Draft}
    {name value : String} (ends_line : (Lexing.ofText .script front).EndsLine)
    (tokens_eq : tokenize .script front = .ok tokens)
    (reached : Build.walk (Build.expansion resolver options.maxIncludeDepth []) tokens
      (Draft.start options bindings) = .ok (.goOn, draft))
    (is_name : Variable.isName name.toList = true)
    (found : draft.bindings.get? name = some value) (value_ne : value ≠ "") :
    let quoted := "\"$(" ++ name ++ ")\""
    let received := Command.received value
    (received = value ↔ ¬['"', '"'] <:+: value.toList) ∧
      (∀ target : String, Variable.isName target.toList = true →
        ∃ script batch,
          build resolver options bindings
              (front ++ (":setvar " ++ target ++ " " ++ quoted) ++ ("\nX$(" ++ target ++ ")")) =
              .ok script ∧
            script.batches = draft.batches.push batch ∧
              batch.text = draft.pending.text ++ "\nX" ++ value) ∧
        (∀ kind ∈ [.connect, .out, .error, .perfTrace],
          ∃ script batch,
            build resolver options bindings
                (front ++ (kind.display ++ " " ++ quoted) ++ "\nX") = .ok script ∧
              script.batches = draft.batches.push batch ∧
                batch.text = draft.pending.text ++ "\nX" ∧
                  (kind = .connect → batch.connectTarget = some received) ∧
                    (kind ∈ OutputTargets.kinds →
                      script.outputTargets.target? kind = some received)) ∧
          ∀ behind : String, (∀ c ∈ behind.toList.head?, c = '\n') →
            (∀ target : String, Variable.isName target.toList = true →
              let line := ":setvar " ++ target ++ " " ++ quoted
              build resolver options bindings (front ++ line ++ behind) =
                Build.scriptBehind resolver options
                  (.ok (.goOn, { draft with bindings := draft.bindings.insert target value }))
                  ((Position.startOf .script).advance (front ++ line).toList) behind.toList) ∧
              (∀ kind ∈ [.connect, .out, .error, .perfTrace],
                let line := kind.display ++ " " ++ quoted
                let start := (Position.startOf .script).advance (front ++ line).toList
                build resolver options bindings (front ++ line ++ behind) =
                    Build.scriptBehind resolver options
                      (.ok (.goOn, draft.record kind received)) start behind.toList ∧
                  ∀ script, build resolver options bindings (front ++ line ++ behind) =
                      .ok script →
                    script.RecordsBehind resolver draft.bindings start behind.toList kind received
                      draft.batches.size) ∧
                (0 < options.maxIncludeDepth →
                  let line := ":r " ++ quoted
                  build resolver options bindings (front ++ line ++ behind) =
                    Build.scriptBehind resolver options
                      (match resolver received .script with
                      | .error missing =>
                          .error
                            { cause := .includeNotFound received missing.message
                              position := (Position.startOf .script).advance front.toList }
                      | .ok file => do
                          let tokens ← tokenize (.included file.path) file.text
                          Build.walk (Build.expansion resolver options.maxIncludeDepth [file.path])
                            tokens draft)
                      ((Position.startOf .script).advance (front ++ line).toList)
                      behind.toList) := by
  intro quoted received
  have refers : draft.bindings.Refers name.toList value :=
    Variable.Table.refers_iff.mpr ⟨is_name, by rwa [String.ofList_toList]⟩
  have quoted_eq : quoted.toList = Command.inQuotes (Command.reference name.toList) := by
    rw [Command.inQuotes, Command.doubleQuotes_eq_self (Command.unquoted_reference is_name)]
    simp [quoted, Command.reference]
  have one_line := Command.one_line_inQuotes (Command.one_line_reference is_name)
  have trimmed := Command.trimmed_inQuotes (Command.reference name.toList)
  have argument {command : Command}
      (arguments_eq : command.arguments =
        String.ofList (Command.inQuotes (Command.reference name.toList))) (missing : String) :
      command.requiredArgument draft.bindings missing = .ok received :=
    Command.requiredArgument_of_reference missing arguments_eq refers value_ne
  have assigned {target : String} (is_target : Variable.isName target.toList = true)
      (behind : String) (ends : ∀ c ∈ behind.toList.head?, c = '\n') :
      build resolver options bindings
          (front ++ (":setvar " ++ target ++ " " ++ quoted) ++ behind) =
        Build.scriptBehind resolver options
          (.ok (.goOn, { draft with bindings := draft.bindings.insert target value }))
          ((Position.startOf .script).advance
            (front ++ (":setvar " ++ target ++ " " ++ quoted)).toList) behind.toList := by
    have line_eq : (":setvar " ++ target ++ " " ++ quoted).toList =
        Lexeme.wordLine .setVar
          (target.toList ++ ' ' :: Command.inQuotes (Command.reference name.toList)) := by
      simp [Lexeme.wordLine, CommandKind.display, CommandKind.name, quoted_eq]
    rw [String.toList_append, line_eq]
    refine Build.build_of_wordLine_behind ends_line tokens_eq reached (by decide)
      (Command.one_line_assignment is_target (Command.one_line_reference is_name))
      (Command.trimmed_assignment is_target _) ends (by simp [← line_eq]) fun argumentsStart => ?_
    refine Build.perform_of_assignment _ _ rfl ?_
    rw [Command.assignment_of_reference rfl is_target refers, String.ofList_toList]
  have targets {kind : CommandKind} (recorded : kind ∈ [.connect, .out, .error, .perfTrace])
      (behind : String) (ends : ∀ c ∈ behind.toList.head?, c = '\n') :
      build resolver options bindings (front ++ (kind.display ++ " " ++ quoted) ++ behind) =
        Build.scriptBehind resolver options (.ok (.goOn, draft.record kind received))
          ((Position.startOf .script).advance (front ++ (kind.display ++ " " ++ quoted)).toList)
          behind.toList := by
    have line_eq : (kind.display ++ " " ++ quoted).toList =
        Lexeme.wordLine kind (Command.inQuotes (Command.reference name.toList)) := by
      simp [Lexeme.wordLine, quoted_eq]
    have kind_ne : kind ≠ .onError := by
      rintro rfl
      simp at recorded
    rw [String.toList_append, line_eq]
    exact Build.build_of_wordLine_behind ends_line tokens_eq reached kind_ne one_line trimmed ends
      (by simp [← line_eq]) fun argumentsStart =>
        Build.perform_of_target _ _ recorded (argument rfl)
  have tracked : draft.pending.Tracked := Build.tracked_walk reached fun _ => rfl
  refine ⟨?_, fun target is_target => ?_, fun kind recorded => ?_, fun behind ends =>
    ⟨fun target is_target => assigned is_target behind ends, fun kind recorded => ?_,
      fun nests => ?_⟩⟩
  · rw [← Command.collapseQuotes_eq_self_iff, ← String.toList_inj]
    simp [received, Command.received]
  · have behind_eq : ("\nX$(" ++ target ++ ")").toList =
        '\n' :: 'X' :: '$' :: '(' :: (target.toList ++ [')']) := by
      simp
    rw [assigned is_target _ (by simp), behind_eq]
    exact Build.scriptBehind_of_assignment resolver options draft value is_target _ tracked
  · rw [targets recorded "\nX" (by simp)]
    exact Build.scriptBehind_of_record resolver options draft kind received _ tracked
  · refine ⟨targets recorded behind ends, fun script built => ?_⟩
    rw [targets recorded behind ends] at built
    exact Build.recordsBehind_of_scriptBehind built
  · have line_eq : (":r " ++ quoted).toList =
        Lexeme.wordLine .includeFile (Command.inQuotes (Command.reference name.toList)) := by
      simp [Lexeme.wordLine, CommandKind.display, CommandKind.name, quoted_eq]
    have file_eq : ((Position.startOf .script).advance front.toList).file = .script :=
      Position.advance_file _ _
    dsimp only
    rw [String.toList_append, line_eq]
    refine Build.build_of_wordLine_behind ends_line tokens_eq reached (by decide) one_line trimmed
      ends (by simp [← line_eq]) fun argumentsStart => ?_
    refine (Build.perform_of_include _ resolver rfl nests (argument rfl)).trans ?_
    cases found : resolver received .script with
    | error missing => simp only [file_eq, found]
    | ok file => simp only [file_eq, found]

/-- Quotes at the ends of a value, a line feed and the opening of a reference are kept. -/
theorem values_of_arguments_with_quotes_and_lines :
    let value := "\"a\n$( b\""
    let bindings := Variable.Table.ofList [("N", value)]
    let front := "x\nGO\n:reset\n"
    let built := build (Resolver.ofFiles [(value, "b")]) {} bindings
    ((built (front ++ ":connect \"$(n)\"" ++ "\nX")).toOption.map
          fun script => script.batches.toList.map Batch.connectTarget) =
        some [none, some value] ∧
      (∃ script, built (front ++ ":out \"$(n)\"" ++ "\nX") = .ok script ∧
        script.outputTargets.out = some value) ∧
        ((built (front ++ ":setvar m \"$(n)\"" ++ "\n$(m)")).toOption.map
            fun script => script.batches.toList.map Batch.text) = some ["x\n", "\n\n" ++ value] ∧
          ((built (front ++ ":r \"$(n)\"")).toOption.map
            fun script => script.batches.toList.map Batch.text) = some ["x\n", "\nb"] := by
  intro value bindings front built
  have ends_line : (Lexing.ofText .script front).EndsLine := by
    unfold Lexing.EndsLine
    decide +kernel
  have tokens_eq : tokenize .script front = .ok (Lexing.ofText .script front).tokens := by
    decide +kernel
  have reached : (Build.walk (Build.expansion (Resolver.ofFiles [(value, "b")]) 16 [])
      (Lexing.ofText .script front).tokens (Draft.start {} bindings)).toOption.map
        (fun walked => (walked.1, walked.2.bindings.get? "n")) = some (.goOn, some value) := by
    decide +kernel
  cases walked : Build.walk (Build.expansion (Resolver.ofFiles [(value, "b")]) 16 [])
      (Lexing.ofText .script front).tokens (Draft.start {} bindings) with
  | error failure =>
      rw [walked] at reached
      contradiction
  | ok last =>
      obtain ⟨flow, draft⟩ := last
      rw [walked] at reached
      obtain ⟨rfl, found⟩ := Prod.mk.inj (Option.some.inj reached)
      obtain ⟨-, -, targets, lines⟩ := values_of_arguments (Resolver.ofFiles [(value, "b")]) {}
        bindings ends_line tokens_eq walked (by decide +kernel) found (by decide)
      obtain ⟨script, _, made, -, -, -, outputs⟩ := targets .out (by simp)
      have received_eq : Command.received value = value := by decide +kernel
      have out_eq := outputs (by simp [OutputTargets.kinds])
      rw [received_eq] at out_eq
      obtain ⟨-, connected, -⟩ := lines "\nX" (by simp)
      obtain ⟨assigned, -, -⟩ := lines "\n$(m)" (by simp)
      obtain ⟨-, -, included⟩ := lines "" (by simp)
      have draft_eq : draft = ((Build.walk (Build.expansion (Resolver.ofFiles [(value, "b")]) 16 [])
          (Lexing.ofText .script front).tokens (Draft.start {} bindings)).toOption.elim
            (Draft.start {} bindings) Prod.snd) := by
        rw [walked]
        rfl
      have connect_eq : built (front ++ ":connect \"$(n)\"" ++ "\nX") = _ :=
        (connected .connect (by simp)).1
      have assign_eq : built (front ++ ":setvar m \"$(n)\"" ++ "\n$(m)") = _ :=
        assigned "m" (by decide +kernel)
      have include_eq : built (front ++ ":r \"$(n)\"" ++ "") = _ := included (by decide)
      rw [String.append_empty] at include_eq
      refine ⟨?_, ⟨script, made, out_eq⟩, ?_, ?_⟩
      · rw [connect_eq, draft_eq]
        decide +kernel
      · rw [assign_eq, draft_eq]
        decide +kernel
      · rw [include_eq, draft_eq]
        decide +kernel

/-- Of two quotes that stand side by side in a value, a target loses one. -/
theorem quote_lost_in_target :
    let bindings := Variable.Table.ofList [("n", "a\"\"b")]
    let built := build (Resolver.ofFiles []) {} bindings
    ((built ":connect \"$(n)\"\na").toOption.map
          fun script => script.batches.toList.map Batch.connectTarget) = some [some "a\"b"] ∧
      ((built ":out \"$(n)\"\na").toOption.map fun script => script.outputTargets.out) =
          some (some "a\"b") ∧
        ((built ":setvar m \"$(n)\"\n$(m)").toOption.map
          fun script => script.batches.toList.map Batch.text) = some ["\na\"\"b"] := by
  decide +kernel

end SqlScript
