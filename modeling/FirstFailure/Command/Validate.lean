import FirstFailure.Command.Arguments
import FirstFailure.Command.Environment
import FirstFailure.Command.Session
import FirstFailure.Target.Audit
import FirstFailure.Target.Schema
/-!
# Validating a target document

A document is checked against the schema, and what has the shape of a document also for defects that
the schema cannot see.
-/

namespace FirstFailure

namespace TargetDocument

/-- How a text departs from the schema. A text without a value that the schema could be applied to
departs from it at the top, for the given reason. -/
inductive SchemaResult where
  | unreadable (reason : String)
  | violations (list : List SchemaViolation)

/-- The result of holding a text against the schema. -/
def checkSchema (reader : YamlReader) (text : String) : SchemaResult :=
  match reader.value text with
  | .error reason => .unreadable reason
  | .ok value => .violations (schemaViolations value)

/-- The message for a text that the schema cannot be applied to. -/
def unreadableMessage (reason : String) : String := "YAML parse error: " ++ reason

/-- The lines of a schema result. -/
def SchemaResult.lines : SchemaResult → List String
  | unreadable reason => ["schema: " ++ unreadableMessage reason]
  | violations list => list.map (·.text)

/-- The lines of the defects of a text that has the shape of a document. -/
def auditLines (reader : YamlReader) (text : String) : List String :=
  match reader.document text with
  | .ok document => document.audit.map (·.text)
  | .error _ => []

/-- Everything that is wrong with a text. -/
def problems (reader : YamlReader) (text : String) : List String :=
  (checkSchema reader text).lines ++ auditLines reader text

end TargetDocument

namespace ValidateCommand

/-- A number of validation errors. -/
def count (problems : List String) : String :=
  toString problems.length ++ " validation error" ++ if problems.length = 1 then "" else "s"

/-- Validate the document in a file. -/
def run (environment : Environment) (command : ValidateCommand) : Action Unit := do
  let text ← Action.readText ("reading " ++ command.input) command.input
  let problems := TargetDocument.problems environment.reader text
  if problems.isEmpty then
    if command.quiet then pure () else Action.print (command.input ++ ": valid")
  else
    if !command.quiet && !command.summary then
      for problem in problems do
        Action.printError (command.input ++ ": " ++ problem)
    if command.summary || !command.quiet then
      Action.print (command.input ++ ": " ++ count problems)
    Action.fail ⟨count problems ++ " in " ++ command.input, []⟩

end ValidateCommand

end FirstFailure
