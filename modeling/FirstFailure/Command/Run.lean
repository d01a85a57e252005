import FirstFailure.Command.Convert
import FirstFailure.Command.Info
import FirstFailure.Command.Validate
/-!
# The command line as a whole

`Command.execute` says what a command line does to a disk, what it prints and how it ends.
-/

namespace FirstFailure

/-- How a command line ends. -/
structure Outcome where
  exitCode : UInt8
  session : Session

namespace Command

/-- The steps of a command. -/
def run (environment : Environment) : Command → Action Unit
  | convert command => command.run environment
  | info input => runInfo input
  | validate command => command.run environment

/-- How to use the program. -/
def usage : String :=
  "Usage: sbe-ffdc [--log-level <LEVEL>] convert <INPUTS>... [OPTIONS]\n"
    ++ "       sbe-ffdc [--log-level <LEVEL>] info <INPUT>\n"
    ++ "       sbe-ffdc [--log-level <LEVEL>] validate <INPUT> [--quiet] [--summary]\n"

/-- Run a command line. -/
def execute (environment : Environment) (line : List String) (disk : Disk) : Outcome :=
  match parse line with
  | .error .misuse => ⟨2, { disk, errors := usage }⟩
  | .error .help => ⟨0, { disk, output := usage }⟩
  | .ok command =>
    match (command.run environment).run.run environment.naming { disk } with
    | (.ok _, session) => ⟨0, session⟩
    | (.error error, session) =>
      ⟨1, { session with errors := session.errors ++ error.report }⟩

end Command

end FirstFailure
