import FirstFailure.Target.Document
import FirstFailure.Yaml.Document
import FirstFailure.Yaml.Scalar
/-!
# Target documents in YAML

Where a document wants text, a scalar counts by its spelling, quoted or not. An optional field that
is left out, empty or a plain `null` is absent; a list that is left out or empty has no items. Keys
that mean nothing are passed over, but a key that means something may stand only once.
-/

namespace FirstFailure

namespace Yaml

/-- A plain whole number below `2 ^ 32` without a minus sign. -/
def uint32? : Yaml → Option UInt32
  | scalar text false =>
    (unsigned? text.toList).bind fun n =>
      if n < 4294967296 then some (UInt32.ofNat n) else none
  | _ => none

/-- A node that may be plain `null` or nothing. -/
def optional? {α : Type} (read : Yaml → Option α) : Option Yaml → Option (Option α)
  | none => some none
  | some (scalar text false) =>
    if spellsNull text then some none else (read (scalar text false)).map some
  | some node => (read node).map some

/-- The value of the first entry with a name. -/
def entry? (name : String) : List (Yaml × Yaml) → Option Yaml
  | [] => none
  | (key, value) :: rest => if key.text? = some name then some value else entry? name rest

/-- Whether every key is a scalar and none of the given names stands more than once. -/
def keysFit (names : List String) (entries : List (Yaml × Yaml)) : Bool :=
  entries.all (fun entry => entry.1.text?.isSome)
    && names.all fun name => (entries.countP fun entry => entry.1.text? = some name) ≤ 1

end Yaml

namespace TargetSpec

/-- A target with the given children, its other fields read from the entries of a mapping. -/
def ofEntries? (entries : List (Yaml × Yaml)) (children : List TargetSpec) : Option TargetSpec :=
  if Yaml.keysFit fieldNames entries then do
    return {
      name := ← (Yaml.entry? "name" entries).bind Yaml.text?
      physicalPath := ← Yaml.optional? Yaml.text? (Yaml.entry? "phys_bin_path" entries)
      devicePath := ← Yaml.optional? Yaml.text? (Yaml.entry? "phys_dev_path" entries)
      locationCode := ← Yaml.optional? Yaml.text? (Yaml.entry? "location_code" entries)
      unitId := ← Yaml.optional? Yaml.uint32? (Yaml.entry? "mru_id" entries)
      children }
  else none

mutual

/-- Read a target in which so many collections may still be nested. -/
def ofYaml? (room : Nat) : Yaml → Option TargetSpec
  | .map entries =>
    if room = 0 then none else do ofEntries? entries (← childrenOfEntries? (room - 1) entries)
  | _ => none

/-- Read the children among the entries of a target. -/
def childrenOfEntries? (room : Nat) : List (Yaml × Yaml) → Option (List TargetSpec)
  | [] => some []
  | (key, value) :: rest =>
    if key.text? = some "children" then childrenOfYaml? room value
    else childrenOfEntries? room rest

/-- Read a list of targets. -/
def childrenOfYaml? (room : Nat) : Yaml → Option (List TargetSpec)
  | .seq items => if room = 0 then none else allOfYaml? (room - 1) items
  | .scalar text false => if text = "" then some [] else none
  | _ => none

/-- Read several targets. -/
def allOfYaml? (room : Nat) : List Yaml → Option (List TargetSpec)
  | [] => some []
  | item :: rest => do return (← ofYaml? room item) :: (← allOfYaml? room rest)

end

end TargetSpec

namespace TargetDocument

/-- Read a document; an empty one has no targets. -/
def ofYaml? : Yaml → Option TargetDocument
  | .map entries =>
    if Yaml.keysFit fieldNames entries then do
      return {
        locationCode := ← Yaml.optional? Yaml.text? (Yaml.entry? "location_code" entries)
        targets := ←
          match Yaml.entry? "targets" entries with
          | none => some []
          | some node => TargetSpec.childrenOfYaml? (Yaml.maxDepth - 1) node }
    else none
  | .scalar text false => if text = "" then some {} else none
  | _ => none

end TargetDocument

/-- How texts in YAML are read: as values, and as target documents. A text that cannot be read has a
reason. -/
structure YamlReader where
  value : String → Except String Json
  document : String → Except String TargetDocument

namespace YamlReader

/-- Read the node of a text, without reasons. -/
def readNode {α : Type} (read : Yaml → Option α) (text : String) : Except String α :=
  match Yaml.parse text with
  | .error _ => .error ""
  | .ok node =>
    match read node with
    | some result => .ok result
    | none => .error ""

/-- The reader of plain YAML. -/
def plain : YamlReader where
  value := readNode Yaml.toJson?
  document := readNode TargetDocument.ofYaml?

end YamlReader

end FirstFailure
