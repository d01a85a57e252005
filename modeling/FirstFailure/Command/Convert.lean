import FirstFailure.Command.Arguments
import FirstFailure.Command.Environment
import FirstFailure.Command.Session
import FirstFailure.Json.Printer
import FirstFailure.Report.Attachments
import FirstFailure.Report.Basic
import FirstFailure.Target.Tree
/-!
# Converting responses

One response is converted to a file or to the output. Several responses go into a directory, each
under its own name, and they are converted at the same time; one that fails does not keep the others
from being converted.
-/

namespace FirstFailure

namespace TargetTree

/-- Why a text makes no tree: it is no document, for the given reason, or one without a tree. -/
inductive LoadError where
  | document (reason : String)
  | tree (error : TreeError)
deriving Repr, DecidableEq

/-- The text of a loading error with its causes. -/
def LoadError.messages : LoadError → List String
  | document reason => ["YAML deserialization error: " ++ reason, reason]
  | tree error => [error.message]

/-- The tree that a text describes. -/
def parse (reader : YamlReader) (text : String) : Except LoadError TargetTree := do
  let document ← (reader.document text).mapError LoadError.document
  (ofDocument document).mapError LoadError.tree

end TargetTree

/-- The text of a report error with its causes. -/
def ReportError.messages : ReportError → List String
  | malformed error => [(malformed error).message, error.message]
  | noPackages => [noPackages.message]

namespace ConvertCommand

/-- The name that a response's files share: that of its own file without the extension. -/
def stem (input : String) : String :=
  ((Disk.fileName? input).map Disk.withoutExtension).getD "response"

/-- The name of the entries of a response among those of other responses. -/
def outputName (input : String) : String := stem input ++ ".json"

/-- The view of the target tree in a file, or of none. -/
def loadTargets (reader : YamlReader) : Option String → Action TargetLookup
  | none => return .none
  | some path => do
    let text ← Action.readText ("reading " ++ path) path
    let tree ← Action.get ("parsing target tree " ++ path) TargetTree.LoadError.messages
      (TargetTree.parse reader text)
    return tree.toLookup

/-- Write the attachments of a response's entries into a directory. -/
def writeAttachments (input directory : String) (entries : Entries) : Action Unit := do
  Action.perform ("creating attachment directory " ++ directory) (.makeDirectories directory)
  let created ← Action.await (AttachmentFile.createIn directory entries)
  let files ← Action.get ("writing attachments for " ++ input) (fun error => [error.message])
    created
  match ← Action.await (AttachmentFile.persistAll directory (stem input) files) with
  | .ok _ => return
  | .error error => Action.fail ⟨error.message, []⟩

/-- The last step of a conversion: the entries go to a file or to the output. -/
def writeEntries (output : Option String) (input : String) (report : Report) : Action Unit := do
  let text := report.entries.toJson.pretty
  match output with
  | none => Action.print text
  | some path =>
    Action.perform ("writing " ++ path) (.write path (text ++ "\n").toUTF8.toList)
    Action.print ("Converted " ++ input ++ " -> " ++ path)

/-- Convert one response. -/
def convertOne (command : ConvertCommand) (lookup : TargetLookup) (output : Option String)
    (input : String) : Action Unit := do
  let buffer ← Action.perform ("reading " ++ input) (.read input)
  let report ← Action.get ("processing " ++ input) ReportError.messages
    (Report.ofResponse buffer Decoder.raw lookup command.options)
  match command.attachments with
  | some directory => writeAttachments input directory report.entries
  | none => pure ()
  writeEntries output input report

/-- The first input whose files would take the place of an earlier one's, with the last such input
before it. -/
def clash? (before : List String) : List String → Option (String × String)
  | [] => none
  | input :: rest =>
    match before.reverse.find? fun earlier => stem earlier = stem input with
    | some earlier => some (earlier, input)
    | none => clash? (before ++ [input]) rest

/-- Convert every response into a directory, all at the same time. -/
def convertEach (command : ConvertCommand) (schedule : Schedule) (lookup : TargetLookup)
    (directory : String) (inputs : List String) : Process (List (Except CommandError Unit)) :=
  Process.all schedule <| inputs.map fun input =>
    (convertOne command lookup (some (Disk.join directory (outputName input))) input).run

/-- The failures among the results, with the inputs that they belong to. -/
def failures (inputs : List String) (results : List (Except CommandError Unit)) :
    List (String × CommandError) :=
  (inputs.zip results).filterMap fun
    | (input, .error error) => some (input, error)
    | (_, .ok _) => none

/-- Convert several responses into a directory. -/
def convertMany (environment : Environment) (command : ConvertCommand) (lookup : TargetLookup) :
    Action Unit :=
  match command.output with
  | none => Action.fail ⟨"--output <DIR> is required when converting several inputs", []⟩
  | some directory =>
    match clash? [] command.inputs with
    | some (earlier, input) =>
      Action.fail
        ⟨earlier ++ " and " ++ input ++ " would both be written as " ++ outputName input, []⟩
    | none => do
      Action.perform ("creating output directory " ++ directory) (.makeDirectories directory)
      let results ← Action.await
        (convertEach command environment.schedule lookup directory command.inputs)
      let failed := failures command.inputs results
      for (input, error) in failed do
        Action.printError ("FAILED " ++ input ++ ": " ++ error.line)
      let count := toString command.inputs.length
      if failed.isEmpty then
        Action.print
          ("Batch complete: " ++ count ++ " responses converted to " ++ directory)
      else
        Action.fail
          ⟨toString failed.length ++ " of " ++ count ++ " responses failed to convert", []⟩

/-- Convert the responses that a command names. -/
def run (environment : Environment) (command : ConvertCommand) : Action Unit := do
  let lookup ← loadTargets environment.reader command.targets
  match command.inputs with
  | [input] => convertOne command lookup command.output input
  | _ => convertMany environment command lookup

end ConvertCommand

end FirstFailure
