import FirstFailure.Report.Aggregation
import FirstFailure.Response.Contents
/-!
# Reports

A report is what a response says: its status, its value, and the entries made from its packages.
The two kinds of entries that a failed boot makes are built here too.
-/

namespace FirstFailure

/-- Why a response makes no report. -/
inductive ReportError where
  /-- The response cannot be read. -/
  | malformed (error : ContentsError)
  /-- The response carries no packages. -/
  | noPackages
deriving Repr, DecidableEq

/-- The text of a report error. -/
def ReportError.message : ReportError → String
  | malformed error => "malformed SBE response: " ++ error.message
  | noPackages => "no FFDC data found in SBE response"

/-- What a response says. -/
structure Report where
  status : Status
  value : Bytes
  entries : Entries
deriving Repr, DecidableEq

/-- The report of a response. The status of the operation decides nothing, nor does a package that
cannot be decoded. -/
def Report.ofResponse (buffer : Bytes) (decoder : Decoder) (lookup : TargetLookup)
    (options : ReportOptions) : Except ReportError Report := do
  let contents ← (Contents.read buffer).mapError ReportError.malformed
  if contents.groups.isEmpty then .error .noPackages
  else
    return {
      status := contents.frame.status
      value := contents.frame.value
      entries := contents.groups.toEntries decoder lookup options }

/-- The chip that failed data was collected from. -/
structure Chip where
  position : UInt32
  chipType : ChipType
deriving Repr, DecidableEq

/-- The options for a boot failure: raw packages are attached. -/
def Chip.bootFailureOptions (chip : Chip) (severityMerge : SeverityMerge) : ReportOptions where
  message := bootFailureMessage
  chipPosition := chip.position
  chipType := chip.chipType
  severityMerge
  attachRaw := true

/-- The entries for a chip whose boot engine failed to boot, from its response. -/
def Chip.bootFailure (chip : Chip) (buffer : Bytes) (decoder : Decoder) (lookup : TargetLookup)
    (severityMerge : SeverityMerge) : Except ReportError Entries :=
  (Report.ofResponse buffer decoder lookup (chip.bootFailureOptions severityMerge)).map
    (·.entries)

/-- The message of entries about a system without a processor to boot from. -/
def noBootProcessorMessage : String := "org.open_power.PHAL.Error.NoFunctionalBootProc"

/-- The entries for a system without a processor to boot from: all they tell is where that
processor was expected. -/
def Chip.noBootProcessor (chip : Chip) : Entries :=
  [{
    message := noBootProcessorMessage
    severity := .recovered
    userData := [(positionKey, positionValue chip.position)]
    callouts := [] }]

end FirstFailure
