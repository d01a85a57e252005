import FirstFailure.Diagnostic.Entry
import FirstFailure.Procedure.Failure
import FirstFailure.Target.Lookup
/-!
# From failure data to user data and callouts

Every request makes a block of pairs whose keys carry its list and its number, counted from one. A
request whose target is not found keeps its number: a part then only says what it is, and a target
says nothing.
-/

namespace FirstFailure

/-- Failure data of a kind that makes no entry. -/
structure ConversionError where
  kind : FailureKind
  message : String
deriving Repr, DecidableEq

/-- The text of a conversion error. -/
def ConversionError.text (error : ConversionError) : String :=
  "unsupported FFDC kind " ++ error.kind.name ++ " for PEL conversion: " ++ error.message

/-- What the failure data of one package adds to an entry. -/
structure Contribution where
  userData : UserData
  callouts : List Callout
deriving Repr, DecidableEq

namespace Contribution

/-- Nothing. -/
def none : Contribution := ⟨[], []⟩

/-- One contribution behind the other. -/
def append (first second : Contribution) : Contribution :=
  ⟨first.userData ++ second.userData, first.callouts ++ second.callouts⟩

/-- Contributions in a row. -/
def concat : List Contribution → Contribution
  | [] => none
  | first :: rest => append first (concat rest)

end Contribution

/-- A truth value in user data. -/
def flagText (value : Bool) : String := if value then "true" else "false"

/-- A number of at least two digits. -/
def twoDigits (n : Nat) : String := (if n < 10 then "0" else "") ++ toString n

/-- The start of the keys of a request, from the name of its list and its number. -/
def blockKey (list : String) (number : Nat) : String := list ++ twoDigits number ++ "_"

/-- The list name of part requests. -/
def partList : String := "HWP_HW_CO_"

/-- The list name of target requests. -/
def targetList : String := "HWP_CDG_TGT_"

/-- The list name of procedure requests. -/
def procedureList : String := "HWP_PROC_CO_"

/-- Where a target is and its device path, as far as they are known. -/
def locationPairs (lookup : TargetLookup) (key : String) (target : Nat) : UserData :=
  (match lookup.locationCode target with
    | some code => [(key ++ "LOC_CODE", code)]
    | none => [])
    ++ match lookup.devicePath target with
      | some path => [(key ++ "PHYS_PATH", path)]
      | none => []

namespace PartRequest

/-- What a part request adds. The planar is at a fixed place; the target found only adds pairs. -/
def contribution (lookup : TargetLookup) (number : Nat) (request : PartRequest) : Contribution :=
  let key := blockKey partList number
  let heading := [(key ++ "HW_ID", request.hardwareId), (key ++ "PRIORITY", request.priority)]
  match lookup.findByPath lookup.root request.targetPath with
  | none => ⟨heading, []⟩
  | some target =>
    ⟨heading ++ locationPairs lookup key target
        ++ [(key ++ "CLK_POS", toString request.clockPosition.toNat),
          (key ++ "CALLOUT_PLANAR", flagText request.isPlanar)],
      if request.isPlanar then [.hardware (.planar (.ofWord request.priority))] else []⟩

end PartRequest

namespace TargetRequest

/-- The callout of a target request, with the replaceable unit of the target found. -/
def toCallout (request : TargetRequest) (unitId : Option UInt32) : TargetCallout :=
  let priority := Priority.ofWord request.priority
  {
    priority
    deconfigured := request.deconfigure
    guarded := request.guard
    guardType := request.guardType
    entityPath := request.targetPath
    units := match unitId with
      | some id => [⟨id, priority⟩]
      | none => [] }

/-- What a target request adds. -/
def contribution (lookup : TargetLookup) (number : Nat) (request : TargetRequest) :
    Contribution :=
  let key := blockKey targetList number
  match lookup.findByPath lookup.root request.targetPath with
  | none => .none
  | some target =>
    ⟨locationPairs lookup key target
        ++ [(key ++ "CO_REQ", flagText request.callout),
          (key ++ "CO_PRIORITY", request.priority),
          (key ++ "DECONF_REQ", flagText request.deconfigure),
          (key ++ "GUARD_REQ", flagText request.guard),
          (key ++ "GUARD_TYPE", request.guardType)],
      [.target (request.toCallout (lookup.unitId target))]⟩

end TargetRequest

namespace ProcedureRequest

/-- What a procedure request adds. -/
def contribution (number : Nat) (request : ProcedureRequest) : Contribution :=
  let key := blockKey procedureList number
  ⟨[(key ++ "PRIORITY", request.priority), (key ++ "MAINT_PROCEDURE", request.procedure)],
    [.procedure ⟨request.procedure, .ofWord request.priority⟩]⟩

end ProcedureRequest

/-- The contributions of requests, the first of which has the given number. -/
def blocks {α : Type} (contribution : Nat → α → Contribution) (number : Nat) :
    List α → List Contribution
  | [] => []
  | request :: rest => contribution number request :: blocks contribution (number + 1) rest

namespace Failure

/-- The pairs that stand before the blocks: return code and raw data. -/
def heading (failure : Failure) : UserData :=
  [("HWP_RC", failure.returnCode), ("HWP_RC_DESC", failure.returnCodeText)]
    ++ failure.data.map fun pair => ("HWP_FFDC_" ++ pair.1, pair.2)

/-- Whether failure data of a kind makes an entry. -/
def convertible (kind : FailureKind) : Bool :=
  kind = .none ∨ kind = .unsupported

/-- What failure data adds to an entry. -/
def convert (failure : Failure) (lookup : TargetLookup) :
    Except ConversionError Contribution :=
  if convertible failure.kind then
    .ok (.concat (⟨failure.heading, []⟩
      :: blocks (PartRequest.contribution lookup) 1 failure.parts
      ++ blocks (TargetRequest.contribution lookup) 1 failure.targets
      ++ blocks ProcedureRequest.contribution 1 failure.procedures))
  else .error ⟨failure.kind, failure.message⟩

end Failure

end FirstFailure
