import FirstFailure.Bytes
import FirstFailure.Json.Reading
/-!
# Failure data of hardware procedures

What a decoder makes of the data of one package: return code, pairs of raw data, and requests to
call out parts, targets and maintenance procedures. Priorities are the procedure's own words.
-/

namespace FirstFailure

/-- What a decoder recognised in a package. -/
inductive FailureKind where
  /-- Nothing in particular. -/
  | none
  /-- No known procedure, but the return code is filled in. -/
  | unsupported
  /-- A hardware procedure. -/
  | procedure
  /-- A spare clock. -/
  | spareClock
deriving Repr, DecidableEq, Inhabited

namespace FailureKind

/-- The kinds. -/
def all : List FailureKind := [none, unsupported, procedure, spareClock]

/-- The name of a kind in documents. -/
def key : FailureKind → String
  | none => "none"
  | unsupported => "unsupported"
  | procedure => "hwp"
  | spareClock => "spare_clock_info"

/-- The name of a kind in messages. -/
def name : FailureKind → String
  | none => "None"
  | unsupported => "Unsupported"
  | procedure => "Hwp"
  | spareClock => "SpareClockInfo"

end FailureKind

/-- The type of chip that failed. -/
inductive ChipType where
  | processor
  | memoryBuffer
deriving Repr, DecidableEq, Inhabited

namespace ChipType

/-- The chip types. -/
def all : List ChipType := [processor, memoryBuffer]

/-- The name of a chip type in documents and on the command line. -/
def key : ChipType → String
  | processor => "proc"
  | memoryBuffer => "ocmb"

/-- The name of a chip type in messages. -/
def name : ChipType → String
  | processor => "Proc"
  | memoryBuffer => "Ocmb"

/-- The chip type of a name. -/
def ofKey? (text : String) : Option ChipType := all.find? fun chipType => chipType.key = text

/-- The text of the error for a name of no chip type. -/
def unknownMessage (text : String) : String :=
  "unknown chip type: " ++ text ++ ". Use proc or ocmb"

end ChipType

/-- A request to call out a part, known by the target it belongs to. -/
structure PartRequest where
  hardwareId : String
  priority : String
  targetPath : Bytes
  clockPosition : UInt32
  isPlanar : Bool
deriving Repr, DecidableEq

/-- A request to call out, deconfigure or guard a target. -/
structure TargetRequest where
  targetPath : Bytes
  callout : Bool
  priority : String
  deconfigure : Bool
  guard : Bool
  guardType : String
deriving Repr, DecidableEq

/-- A request to call out a maintenance procedure. -/
structure ProcedureRequest where
  procedure : String
  priority : String
deriving Repr, DecidableEq

/-- The decoded failure data of a package. -/
structure Failure where
  kind : FailureKind
  message : String
  returnCode : String
  returnCodeText : String
  data : List (String × String)
  parts : List PartRequest
  targets : List TargetRequest
  procedures : List ProcedureRequest
deriving Repr, DecidableEq

/-- The document of a part request. -/
def PartRequest.toJson (request : PartRequest) : Json :=
  .obj [
    ("hw_id", .str request.hardwareId),
    ("priority", .str request.priority),
    ("target_entity_path", .ofBytes request.targetPath),
    ("clock_position", .ofNat request.clockPosition.toNat),
    ("is_planar", .bool request.isPlanar)]

/-- Read a part request. -/
def PartRequest.ofJson? (value : Json) : Option PartRequest :=
  match value.fields?
      ["hw_id", "priority", "target_entity_path", "clock_position", "is_planar"] with
  | some [hardwareId, priority, targetPath, clockPosition, isPlanar] => do
    return {
      hardwareId := ← Json.required Json.string? hardwareId
      priority := ← Json.required Json.string? priority
      targetPath := ← Json.required Json.bytes? targetPath
      clockPosition := ← Json.required Json.uint32? clockPosition
      isPlanar := ← Json.required Json.bool? isPlanar }
  | _ => none

/-- The document of a target request. -/
def TargetRequest.toJson (request : TargetRequest) : Json :=
  .obj [
    ("target_entity_path", .ofBytes request.targetPath),
    ("callout", .bool request.callout),
    ("priority", .str request.priority),
    ("deconfigure", .bool request.deconfigure),
    ("guard", .bool request.guard),
    ("guard_type", .str request.guardType)]

/-- Read a target request. -/
def TargetRequest.ofJson? (value : Json) : Option TargetRequest :=
  match value.fields?
      ["target_entity_path", "callout", "priority", "deconfigure", "guard", "guard_type"] with
  | some [targetPath, callout, priority, deconfigure, guard, guardType] => do
    return {
      targetPath := ← Json.required Json.bytes? targetPath
      callout := ← Json.required Json.bool? callout
      priority := ← Json.required Json.string? priority
      deconfigure := ← Json.required Json.bool? deconfigure
      guard := ← Json.required Json.bool? guard
      guardType := ← Json.required Json.string? guardType }
  | _ => none

/-- The document of a procedure request. -/
def ProcedureRequest.toJson (request : ProcedureRequest) : Json :=
  .obj [("procedure", .str request.procedure), ("priority", .str request.priority)]

/-- Read a procedure request. -/
def ProcedureRequest.ofJson? (value : Json) : Option ProcedureRequest :=
  match value.fields? ["procedure", "priority"] with
  | some [procedure, priority] => do
    return {
      procedure := ← Json.required Json.string? procedure
      priority := ← Json.required Json.string? priority }
  | _ => none

namespace Failure

/-- The document of failure data. -/
def toJson (failure : Failure) : Json :=
  .obj [
    ("kind", .str failure.kind.key),
    ("message", .str failure.message),
    ("rc", .str failure.returnCode),
    ("rc_desc", .str failure.returnCodeText),
    ("ffdc_data", .ofList Json.ofPair failure.data),
    ("hw_callouts", .ofList PartRequest.toJson failure.parts),
    ("cdg_targets", .ofList TargetRequest.toJson failure.targets),
    ("procedure_callouts", .ofList ProcedureRequest.toJson failure.procedures)]

/-- Read failure data; every field has to be there. -/
def ofJson? (value : Json) : Option Failure :=
  match value.fields?
      ["kind", "message", "rc", "rc_desc", "ffdc_data", "hw_callouts", "cdg_targets",
        "procedure_callouts"] with
  | some [kind, message, returnCode, returnCodeText, data, parts, targets, procedures] => do
    return {
      kind := ← Json.required (Json.constant? FailureKind.all FailureKind.key) kind
      message := ← Json.required Json.string? message
      returnCode := ← Json.required Json.string? returnCode
      returnCodeText := ← Json.required Json.string? returnCodeText
      data := ← Json.required (Json.list? Json.pair?) data
      parts := ← Json.required (Json.list? PartRequest.ofJson?) parts
      targets := ← Json.required (Json.list? TargetRequest.ofJson?) targets
      procedures := ← Json.required (Json.list? ProcedureRequest.ofJson?) procedures }
  | _ => none

end Failure

end FirstFailure
