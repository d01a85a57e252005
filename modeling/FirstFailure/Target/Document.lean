import FirstFailure.Json.Reading
/-!
# Documents that describe target trees

A document lists the top targets; every target lists its children. Everything but a name may be
absent.
-/

namespace FirstFailure

/-- A target as a document describes it, with the path still in text. -/
structure TargetSpec where
  name : String
  physicalPath : Option String := none
  devicePath : Option String := none
  locationCode : Option String := none
  unitId : Option UInt32 := none
  children : List TargetSpec := []
deriving Repr, Inhabited

/-- A document: the location code of the system and its top targets. -/
structure TargetDocument where
  locationCode : Option String := none
  targets : List TargetSpec := []
deriving Repr, Inhabited

namespace TargetSpec

mutual

/-- The number of targets in a subtree, its top included. -/
def count : TargetSpec → Nat
  | ⟨_, _, _, _, _, children⟩ => 1 + countAll children

/-- The number of targets in several subtrees. -/
def countAll : List TargetSpec → Nat
  | [] => 0
  | target :: rest => target.count + countAll rest

end

mutual

/-- The document of a target, with `null` for what is absent. -/
def toJson : TargetSpec → Json
  | ⟨name, physicalPath, devicePath, locationCode, unitId, children⟩ =>
    .obj [
      ("name", .str name),
      ("phys_bin_path", .ofOption .str physicalPath),
      ("phys_dev_path", .ofOption .str devicePath),
      ("location_code", .ofOption .str locationCode),
      ("mru_id", .ofOption (fun id => .ofNat id.toNat) unitId),
      ("children", .arr (toJsonAll children))]

/-- The documents of targets. -/
def toJsonAll : List TargetSpec → List Json
  | [] => []
  | target :: rest => target.toJson :: toJsonAll rest

end

/-- The names of the fields of a target. -/
def fieldNames : List String :=
  ["name", "phys_bin_path", "phys_dev_path", "location_code", "mru_id", "children"]

/-- A target with the given children, its other fields read from a JSON value. -/
def withChildren? (value : Json) (children : List TargetSpec) : Option TargetSpec :=
  match value.fields? fieldNames with
  | some [name, physicalPath, devicePath, locationCode, unitId, _] => do
    return {
      name := ← Json.required Json.string? name
      physicalPath := ← Json.optional Json.string? physicalPath
      devicePath := ← Json.optional Json.string? devicePath
      locationCode := ← Json.optional Json.string? locationCode
      unitId := ← Json.optional Json.uint32? unitId
      children }
  | _ => none

mutual

/-- Read a target. -/
def ofJson? : Json → Option TargetSpec
  | .obj members => do withChildren? (.obj members) (← ofMembers? members)
  | .arr items => do withChildren? (.arr items) (← ofItems? items)
  | _ => none

/-- Read the children among the members of a target; absent children are none. -/
def ofMembers? : List (String × Json) → Option (List TargetSpec)
  | [] => some []
  | (key, value) :: rest => if key = "children" then ofChildren? value else ofMembers? rest

/-- Read the children of a target that is written as an array of fields. -/
def ofItems? : List Json → Option (List TargetSpec)
  | [_, _, _, _, _, value] => ofChildren? value
  | _ => some []

/-- Read an array of children. -/
def ofChildren? : Json → Option (List TargetSpec)
  | .arr items => ofAll? items
  | _ => none

/-- Read several targets. -/
def ofAll? : List Json → Option (List TargetSpec)
  | [] => some []
  | value :: rest => do return (← ofJson? value) :: (← ofAll? rest)

end

end TargetSpec

namespace TargetDocument

/-- The number of targets at all depths. -/
def count (document : TargetDocument) : Nat := TargetSpec.countAll document.targets

/-- The document in JSON. -/
def toJson (document : TargetDocument) : Json :=
  .obj [
    ("location_code", .ofOption .str document.locationCode),
    ("targets", .arr (TargetSpec.toJsonAll document.targets))]

/-- The names of the fields of a document. -/
def fieldNames : List String := ["location_code", "targets"]

/-- Read a document; absent targets are none. -/
def ofJson? (value : Json) : Option TargetDocument :=
  match value.fields? fieldNames with
  | some [locationCode, targets] => do
    return {
      locationCode := ← Json.optional Json.string? locationCode
      targets := ← Json.orDefault [] TargetSpec.ofChildren? targets }
  | _ => none

end TargetDocument

end FirstFailure
