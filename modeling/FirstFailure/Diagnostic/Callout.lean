import FirstFailure.Bytes
import FirstFailure.Json.Reading
/-!
# Callouts

A callout names something to service: a part at a fixed place, a target of the hardware tree, or a
maintenance procedure. In a document the three kinds are told apart by their fields alone, so a
document is read as the first kind whose fields it has.
-/

namespace FirstFailure

/-- How urgent a callout is. -/
inductive Priority where
  | high
  | medium
  | low
deriving Repr, DecidableEq, Inhabited

namespace Priority

/-- The letter of a priority. -/
def letter : Priority → String
  | high => "H"
  | medium => "M"
  | low => "L"

/-- The priorities, most urgent first. -/
def all : List Priority := [high, medium, low]

/-- The priority of a hardware procedure's own word for it. Words without a meaning of their own
count as high. -/
def ofWord (word : String) : Priority :=
  if word = "HIGH" then high
  else if word = "MEDIUM" then medium
  else if word = "LOW" ∨ word = "NONE" then low
  else high

/-- A priority in a document is its letter. -/
def toJson (priority : Priority) : Json := .str priority.letter

/-- Read a priority. -/
def ofJson? : Json → Option Priority := Json.constant? all letter

end Priority

/-- A part at a fixed place of the inventory. -/
structure HardwareCallout where
  inventoryPath : String
  deconfigured : Bool
  guarded : Bool
  priority : Priority
deriving Repr, DecidableEq

/-- The place of the planar in the inventory. -/
def motherboardPath : String := "/xyz/openbmc_project/inventory/system/chassis/motherboard"

/-- The callout of the planar. -/
def HardwareCallout.planar (priority : Priority) : HardwareCallout :=
  ⟨motherboardPath, false, false, priority⟩

/-- A maintenance replaceable unit of a target. -/
structure ReplaceableUnit where
  id : UInt32
  priority : Priority
deriving Repr, DecidableEq

/-- A target of the hardware tree, with what is asked to be done to it. -/
structure TargetCallout where
  priority : Priority
  deconfigured : Bool
  guarded : Bool
  guardType : String
  entityPath : Bytes
  units : List ReplaceableUnit
deriving Repr, DecidableEq

/-- A maintenance procedure to follow. -/
structure ProcedureCallout where
  procedure : String
  priority : Priority
deriving Repr, DecidableEq

/-- Something to service. -/
inductive Callout where
  | hardware (callout : HardwareCallout)
  | target (callout : TargetCallout)
  | procedure (callout : ProcedureCallout)
deriving Repr, DecidableEq

/-- The urgency of a callout of any kind. -/
def Callout.priority : Callout → Priority
  | hardware callout => callout.priority
  | target callout => callout.priority
  | procedure callout => callout.priority

/-- The document of a part. -/
def HardwareCallout.toJson (callout : HardwareCallout) : Json :=
  .obj [
    ("InventoryPath", .str callout.inventoryPath),
    ("Deconfigured", .bool callout.deconfigured),
    ("Guarded", .bool callout.guarded),
    ("Priority", callout.priority.toJson)]

/-- Read a part. -/
def HardwareCallout.ofJson? (value : Json) : Option HardwareCallout :=
  match value.fields? ["InventoryPath", "Deconfigured", "Guarded", "Priority"] with
  | some [inventoryPath, deconfigured, guarded, priority] => do
    return {
      inventoryPath := ← Json.required Json.string? inventoryPath
      deconfigured := ← Json.required Json.bool? deconfigured
      guarded := ← Json.required Json.bool? guarded
      priority := ← Json.required Priority.ofJson? priority }
  | _ => none

/-- The document of a replaceable unit. -/
def ReplaceableUnit.toJson (unit : ReplaceableUnit) : Json :=
  .obj [("ID", .ofNat unit.id.toNat), ("Priority", unit.priority.toJson)]

/-- Read a replaceable unit. -/
def ReplaceableUnit.ofJson? (value : Json) : Option ReplaceableUnit :=
  match value.fields? ["ID", "Priority"] with
  | some [id, priority] => do
    return {
      id := ← Json.required Json.uint32? id
      priority := ← Json.required Priority.ofJson? priority }
  | _ => none

/-- The document of a target callout; units are left out when there are none. -/
def TargetCallout.toJson (callout : TargetCallout) : Json :=
  .obj ([
    ("Priority", callout.priority.toJson),
    ("Deconfigured", .bool callout.deconfigured),
    ("Guarded", .bool callout.guarded),
    ("GuardType", .str callout.guardType),
    ("EntityPath", .ofBytes callout.entityPath)]
    ++ if callout.units.isEmpty then []
      else [("MRUs", .ofList ReplaceableUnit.toJson callout.units)])

/-- Read a target callout; absent units are none. -/
def TargetCallout.ofJson? (value : Json) : Option TargetCallout :=
  match value.fields?
      ["Priority", "Deconfigured", "Guarded", "GuardType", "EntityPath", "MRUs"] with
  | some [priority, deconfigured, guarded, guardType, entityPath, units] => do
    return {
      priority := ← Json.required Priority.ofJson? priority
      deconfigured := ← Json.required Json.bool? deconfigured
      guarded := ← Json.required Json.bool? guarded
      guardType := ← Json.required Json.string? guardType
      entityPath := ← Json.required Json.bytes? entityPath
      units := ← Json.orDefault [] (Json.list? ReplaceableUnit.ofJson?) units }
  | _ => none

/-- The document of a maintenance procedure. -/
def ProcedureCallout.toJson (callout : ProcedureCallout) : Json :=
  .obj [("Procedure", .str callout.procedure), ("Priority", callout.priority.toJson)]

/-- Read a maintenance procedure. -/
def ProcedureCallout.ofJson? (value : Json) : Option ProcedureCallout :=
  match value.fields? ["Procedure", "Priority"] with
  | some [procedure, priority] => do
    return {
      procedure := ← Json.required Json.string? procedure
      priority := ← Json.required Priority.ofJson? priority }
  | _ => none

namespace Callout

/-- The document of a callout is that of its kind. -/
def toJson : Callout → Json
  | hardware callout => callout.toJson
  | target callout => callout.toJson
  | procedure callout => callout.toJson

/-- Read a callout as the first kind that fits. -/
def ofJson? (value : Json) : Option Callout :=
  ((HardwareCallout.ofJson? value).map hardware).or
    (((TargetCallout.ofJson? value).map target).or
      ((ProcedureCallout.ofJson? value).map procedure))

end Callout

end FirstFailure
