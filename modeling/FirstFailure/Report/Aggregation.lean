import FirstFailure.Package.Groups
import FirstFailure.Procedure.Decoder
import FirstFailure.Report.Conversion
/-!
# One entry for each log id

The packages of a group add to its entry in order. A package that refers to platform data, or that
cannot be decoded or converted, adds nothing but its raw bytes.
-/

namespace FirstFailure

/-- The message of entries about a boot failure. -/
def bootFailureMessage : String := "org.open_power.Processor.Error.SbeBootFailure"

/-- The return code of packages that carry platform data instead of failure data. -/
def platformDataCode : UInt32 := 0x02000001

/-- How entries are made. -/
structure ReportOptions where
  message : String := bootFailureMessage
  chipPosition : UInt32 := 0
  chipType : ChipType := .processor
  severityMerge : SeverityMerge := .worst
  attachRaw : Bool := false
deriving Repr, DecidableEq

namespace Package

/-- What a package adds to its entry, if it adds anything. -/
def contribution? (decoder : Decoder) (lookup : TargetLookup) (options : ReportOptions)
    (package : Package) : Option Contribution :=
  if package.returnCode = platformDataCode then none
  else
    match decoder package.returnCode package.data options.chipPosition options.chipType with
    | .error _ => none
    | .ok failure =>
      match failure.convert lookup with
      | .error _ => none
      | .ok contribution => some contribution

/-- The wire forms of packages in a row; a package without one is left out. -/
def rawBytes : List Package → Bytes
  | [] => []
  | package :: rest =>
    match package.encode with
    | .ok bytes => bytes ++ rawBytes rest
    | .error _ => rawBytes rest

end Package

namespace Entry

/-- What the packages of a group add up to, on top of what was there before. -/
def gather (decoder : Decoder) (lookup : TargetLookup) (options : ReportOptions)
    (severity : Severity) (sum : Contribution) : List Package → Severity × Contribution
  | [] => (severity, sum)
  | package :: rest =>
    match package.contribution? decoder lookup options with
    | none => gather decoder lookup options severity sum rest
    | some contribution =>
      gather decoder lookup options
        (options.severityMerge.merge severity package.severity) (sum.append contribution) rest

/-- The entry of a group. -/
def ofGroup (decoder : Decoder) (lookup : TargetLookup) (options : ReportOptions)
    (logId : UInt16) (packages : List Package) : Entry :=
  let (severity, sum) := gather decoder lookup options .undefined .none packages
  {
    message := options.message
    severity
    logId := some logId
    userData := sum.userData ++ [(positionKey, positionValue options.chipPosition)]
    callouts := sum.callouts
    attachment := if options.attachRaw then some (Package.rawBytes packages) else none }

end Entry

/-- The entries of grouped packages, in the order of the groups. -/
def Groups.toEntries (groups : Groups) (decoder : Decoder) (lookup : TargetLookup)
    (options : ReportOptions) : Entries :=
  groups.toList.map fun group => Entry.ofGroup decoder lookup options group.1 group.2

end FirstFailure
