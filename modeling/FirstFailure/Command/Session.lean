import FirstFailure.Process
/-!
# The steps of a command

A command is a process that may fail. One that fails keeps what it changed before. A failure is a
row of messages, from what was tried to what went wrong.
-/

namespace FirstFailure

/-- Why a command fails, the widest context first. -/
structure CommandError where
  message : String
  causes : List String := []
deriving Repr, DecidableEq

namespace CommandError

/-- The messages on one line. -/
def line (error : CommandError) : String := ": ".intercalate (error.message :: error.causes)

/-- A cause with the lines behind its first indented as well. -/
def indentedCause (first next : String) (cause : String) : String :=
  first ++ String.ofList
    (cause.toList.flatMap fun c => if c = '\n' then '\n' :: next.toList else [c])

/-- Numbered causes, each on a line of its own. -/
def numberedCauses (number : Nat) : List String → List String
  | [] => []
  | cause :: rest =>
    indentedCause ("    " ++ toString number ++ ": ") "       " cause
      :: numberedCauses (number + 1) rest

/-- The message and below it the causes, which are numbered when there is more than one. -/
def report (error : CommandError) : String :=
  "Error: " ++ error.message
    ++ (match error.causes with
      | [] => ""
      | [cause] => "\n\nCaused by:\n" ++ indentedCause "    " "    " cause
      | causes => "\n\nCaused by:\n" ++ "\n".intercalate (numberedCauses 0 causes))
    ++ "\n"

end CommandError

/-- A step of a command. -/
abbrev Action (α : Type) := ExceptT CommandError Process α

namespace Action

/-- Fail. -/
def fail {α : Type} (error : CommandError) : Action α := throw error

/-- A process that does not fail by itself. -/
def await {α : Type} (process : Process α) : Action α :=
  ExceptT.mk (process.bind fun result => .ended (.ok result))

/-- A result that has to be there; its error is the cause of the failure. -/
def get {ε α : Type} (context : String) (causes : ε → List String) : Except ε α → Action α
  | .ok result => return result
  | .error error => fail ⟨context, causes error⟩

/-- An operation that has to succeed. -/
def perform (context : String) (operation : Operation) : Action operation.Answer :=
  ExceptT.mk ((Process.perform operation).bind fun answer =>
    .ended (answer.mapError fun error => ⟨context, [error.message]⟩))

/-- The text in a file. -/
def readText (context path : String) : Action String := do
  let content ← perform context (.read path)
  match String.fromUTF8? ⟨content.toArray⟩ with
  | some text => return text
  | none => fail ⟨context, [DiskError.notText.message]⟩

/-- Print a line. -/
def print (line : String) : Action Unit :=
  await ((Process.perform (.print line)).bind fun _ => .ended ())

/-- Print a line among the errors. -/
def printError (line : String) : Action Unit :=
  await ((Process.perform (.printError line)).bind fun _ => .ended ())

end Action

end FirstFailure
