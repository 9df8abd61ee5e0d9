import SqlScript.Text.Blank
import SqlScript.Variable.Substitution

/-!
# Arguments of commands

An argument may stand in double quotes, inside which a quote is written twice.  References in it are
replaced by values.  An assignment names a variable and gives it a value, or none to remove it.
-/

namespace SqlScript
namespace Command

/-- The error of a command whose arguments are refused. -/
def refuse (command : Command) (reason : String) : ParseError where
  cause := .invalidArguments command.kind reason
  position := command.argumentsStart

/-- The text with each pair of quotes replaced by one. -/
def collapseQuotes : List Char → List Char
  | [] => []
  | '"' :: '"' :: rest => '"' :: collapseQuotes rest
  | c :: rest => c :: collapseQuotes rest

/-- What an argument denotes: the inside of surrounding quotes, or the argument itself. -/
def unquote : List Char → List Char
  | '"' :: rest =>
      if rest.getLast? = some '"' then collapseQuotes rest.dropLast else '"' :: rest
  | text => text

/-- The argument of a command that needs one, with values substituted and quotes removed. -/
def requiredArgument (command : Command) (bindings : Variable.Table) (missing : String) :
    Except ParseError String := do
  let argument ← bindings.substitute command.argumentsStart command.arguments.toList
  match unquote (Text.trim argument) with
  | [] => throw (command.refuse missing)
  | value => return String.ofList value

/-- The inside of a quoted value behind its opening quote; only blanks may follow the closing
quote. -/
def quotedValue? : List Char → Option (List Char)
  | [] => none
  | '"' :: '"' :: rest => (quotedValue? rest).map ('"' :: ·)
  | '"' :: rest => if Text.isBlankText rest then some [] else none
  | c :: rest => (quotedValue? rest).map (c :: ·)

/-- The name and the value of an assignment; without a value the variable is to be removed. -/
def assignment (command : Command) (bindings : Variable.Table) :
    Except ParseError (String × Option String) := do
  let arguments := Text.trim command.arguments.toList
  let name := arguments.takeWhile (!Text.isBlank ·)
  let written := Text.trim (arguments.dropWhile (!Text.isBlank ·))
  if name.isEmpty then
    throw (command.refuse "missing variable name")
  else if !Variable.isName name then
    throw (command.refuse ("'" ++ String.ofList name ++ "' is not a valid variable name"))
  else
    match written with
    | [] => return (String.ofList name, none)
    | first :: behind =>
        let raw ←
          if first = '"' then
            match quotedValue? behind with
            | some value => pure value
            | none => throw (command.refuse "unterminated or malformed quoted value")
          else pure (first :: behind)
        let value ← bindings.substitute command.argumentsStart raw
        return (String.ofList name, some (String.ofList value))

end Command
end SqlScript
