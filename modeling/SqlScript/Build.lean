import SqlScript.Build.Argument
import SqlScript.Build.Draft
import SqlScript.Include
import SqlScript.Token.Lexer

/-!
# Building scripts

Building walks through the tokens in order.  Literal text and values go to the pending batch,
separators close it, and commands take effect where they stand.  An include directive walks through
the tokens of its file in place; the number of directives that may still be nested decreases with
each one, so that every walk ends.
-/

namespace SqlScript

/-- Whether a walk goes on after a token. -/
inductive Flow where
  | goOn
  | stop
  deriving DecidableEq, Repr, Inhabited

/-- The result of part of a walk. -/
abbrev Walk :=
  Except ParseError (Flow × Draft)

namespace Build

/-- How an include directive at a position is carried out. -/
abbrev Expansion :=
  Command → Position → Draft → Walk

/-- The target that a command names. -/
def targetOf (command : Command) (draft : Draft) : Except ParseError String :=
  command.requiredArgument draft.bindings "missing target"

/-- Carry out a command that stands at `position`. -/
def perform (expand : Expansion) (command : Command) (position : Position) (draft : Draft) :
    Walk := do
  match command.kind with
  | .setVar =>
      match ← command.assignment draft.bindings with
      | (name, some value) =>
          return (.goOn, { draft with bindings := draft.bindings.insert name value })
      | (name, none) => return (.goOn, { draft with bindings := draft.bindings.erase name })
  | .includeFile => expand command position draft
  | .onError =>
      match ErrorAction.ofArgument? command.arguments with
      | some errorAction => return (.goOn, { draft with errorAction })
      | none => throw (command.refuse "expected 'exit' or 'ignore'")
  | .connect =>
      let target ← command.requiredArgument draft.bindings "missing server name"
      return (.goOn, { draft with connectTarget := some target })
  | .list => return (.goOn, draft.announce draft.pending.text)
  | .listVar => return (.goOn, draft.announce draft.bindings.listing)
  | .out =>
      let target ← targetOf command draft
      return (.goOn,
        { draft with outputTargets := { draft.outputTargets with out := some target } })
  | .error =>
      let target ← targetOf command draft
      return (.goOn,
        { draft with outputTargets := { draft.outputTargets with error := some target } })
  | .perfTrace =>
      let target ← targetOf command draft
      return (.goOn,
        { draft with outputTargets := { draft.outputTargets with perfTrace := some target } })
  | .reset => return (.goOn, { draft with pending := {} })
  | .quit => return (.stop, draft)
  | .exit => return (.stop, draft.close 1 none)

/-- Take in one token. -/
def accept (expand : Expansion) (token : Token) (draft : Draft) : Walk :=
  match token.kind with
  | .text | .quotedString | .quotedIdentifier | .lineComment | .blockComment =>
      .ok (.goOn,
        { draft with pending := draft.pending.appendLiteral token.start token.stop token.text })
  | .reference name => do
      let value ← draft.bindings.resolve name token.start
      return (.goOn,
        { draft with pending := draft.pending.appendValue token.start token.stop value })
  | .separator repeatCount => .ok (.goOn, draft.close repeatCount (some token.start))
  | .command command => perform expand command token.start draft

/-- Take in tokens until one ends the script. -/
def walk (expand : Expansion) : List Token → Draft → Walk
  | [], draft => .ok (.goOn, draft)
  | token :: rest, draft => do
      match ← accept expand token draft with
      | (.goOn, draft) => walk expand rest draft
      | (.stop, draft) => return (.stop, draft)

/-- Carry out an include directive while the files of `stack` are being expanded and `depth` further
files may be nested in the innermost of them. -/
def expand (resolver : Resolver) (limit : Nat) : (depth : Nat) → (stack : List String) → Expansion
  | 0, _, command, position, draft => do
      let _ ← command.requiredArgument draft.bindings "missing file path"
      throw { cause := .includeDepthExceeded limit, position }
  | depth + 1, stack, command, position, draft => do
      let path ← command.requiredArgument draft.bindings "missing file path"
      match resolver path position.file with
      | .error failure => throw { cause := .includeNotFound path failure.message, position }
      | .ok file =>
          if stack.contains file.path then
            throw { cause := .includeCycle file.path, position }
          else
            let tokens ← tokenize (.included file.path) file.text
            walk (expand resolver limit depth (file.path :: stack)) tokens draft

end Build

/-- The script of a row of tokens. -/
def buildTokens (resolver : Resolver) (options : BuildOptions) (bindings : Variable.Table)
    (tokens : List Token) : Except ParseError Script := do
  let expand := Build.expand resolver options.maxIncludeDepth options.maxIncludeDepth []
  match ← Build.walk expand tokens (Draft.start options bindings) with
  | (.goOn, draft) => return (draft.close 1 none).finish
  | (.stop, draft) => return draft.finish

/-- The script of a text. -/
def build (resolver : Resolver) (options : BuildOptions) (bindings : Variable.Table)
    (text : String) : Except ParseError Script := do
  buildTokens resolver options bindings (← tokenize .script text)

end SqlScript
