import FirstFailure.Json.Printer
import FirstFailure.Target.HexPath
/-!
# The schema of target documents

A schema says which JSON values a document may consist of. `Schema.violations` lists where a value
departs from a schema: the members of an object come first, in their order, then members that may
not be there, then members that are missing.
-/

namespace FirstFailure

/-- A schema. A schema refers to another one by name, so that a target may hold targets. -/
inductive Schema where
  /-- A text of at least so many characters that matches the pattern, if there is one. -/
  | string (minLength : Nat) (pattern : Option (Pattern × String))
  /-- A whole number in a range, written with or without a fraction of zero. -/
  | integer (minimum maximum : Int)
  /-- Any number of values. -/
  | array (items : Schema)
  /-- An object with these members and no others. -/
  | object (properties : List (String × Schema)) (required : List String)
  /-- The schema of that name. -/
  | named (name : String)

/-- How a value departs from a schema. -/
inductive SchemaFault where
  | wrongType (value : Json) (expected : String)
  | missing (name : String)
  | unexpected (names : List String)
  | tooShort (value : Json) (minLength : Nat)
  | mismatch (value : Json) (pattern : String)
  | tooSmall (value : Json) (minimum : Int)
  | tooLarge (value : Json) (maximum : Int)

/-- The text of a fault. -/
def SchemaFault.message : SchemaFault → String
  | wrongType value expected => value.compact ++ " is not of type " ++ Json.quoted expected
  | missing name => Json.quoted name ++ " is a required property"
  | unexpected names =>
    "Additional properties are not allowed ("
      ++ ", ".intercalate (names.map fun name => "'" ++ name ++ "'")
      ++ (if names.length = 1 then " was unexpected)" else " were unexpected)")
  | tooShort value minLength =>
    value.compact ++ " is shorter than " ++ toString minLength
      ++ (if minLength = 1 then " character" else " characters")
  | mismatch value pattern => value.compact ++ " does not match \"" ++ pattern ++ "\""
  | tooSmall value minimum =>
    value.compact ++ " is less than the minimum of " ++ toString minimum
  | tooLarge value maximum =>
    value.compact ++ " is greater than the maximum of " ++ toString maximum

/-- A fault and its place: the member names and item numbers that lead there from the top. -/
structure SchemaViolation where
  place : List String
  fault : SchemaFault

namespace SchemaViolation

/-- The place as a pointer. -/
def pointer (violation : SchemaViolation) : String :=
  String.join (violation.place.map ("/" ++ ·))

/-- The text of a violation with its place. -/
def text (violation : SchemaViolation) : String :=
  if violation.pointer = "" then "schema: " ++ violation.fault.message
  else "schema: " ++ violation.pointer ++ ": " ++ violation.fault.message

end SchemaViolation

namespace Schema

/-- Schemas by name. -/
abbrev Definitions := List (String × Schema)

/-- The schema that a name stands for, or the schema itself. -/
def resolve (definitions : Definitions) : Schema → Schema
  | named name => ((definitions.find? (·.1 = name)).map (·.2)).getD (named name)
  | schema => schema

/-- The faults of a text. -/
def textFaults (minLength : Nat) (pattern : Option (Pattern × String)) (text : String) :
    List SchemaFault :=
  (if text.length < minLength then [.tooShort (.str text) minLength] else [])
    ++ match pattern with
      | some (pattern, source) =>
        if pattern.accepts text.toList then [] else [.mismatch (.str text) source]
      | none => []

/-- The faults of a whole number. -/
def intFaults (minimum maximum n : Int) : List SchemaFault :=
  (if maximum < n then [.tooLarge (.int n) maximum] else [])
    ++ if n < minimum then [.tooSmall (.int n) minimum] else []

/-- The faults of a number with a fraction or an exponent where a whole number is wanted. -/
def realFaults (minimum maximum : Int) (x : Binary64) : List SchemaFault :=
  (if x.isIntegral then [] else [.wrongType (.real x) "integer"])
    ++ (if x.gtInt maximum then [.tooLarge (.real x) maximum] else [])
    ++ if x.ltInt minimum then [.tooSmall (.real x) minimum] else []

/-- The faults of a value that does not consist of other values. -/
def scalarFaults : Schema → Json → List SchemaFault
  | string minLength pattern, .str text => textFaults minLength pattern text
  | string _ _, value => [.wrongType value "string"]
  | integer minimum maximum, .int n => intFaults minimum maximum n
  | integer minimum maximum, .real x => realFaults minimum maximum x
  | integer _ _, value => [.wrongType value "integer"]
  | array _, value => [.wrongType value "array"]
  | object _ _, value => [.wrongType value "object"]
  | named _, _ => []

/-- The schema of a member of an object. -/
def property? (properties : List (String × Schema)) (name : String) : Option Schema :=
  (properties.find? (·.1 = name)).map (·.2)

/-- The faults of the set of members of an object. -/
def memberFaults (properties : List (String × Schema)) (required : List String)
    (members : List (String × Json)) : List SchemaFault :=
  let names := members.map (·.1)
  let extra := names.filter fun name => (property? properties name).isNone
  (if extra.isEmpty then [] else [.unexpected extra])
    ++ (required.filter fun name => !names.contains name).map .missing

mutual

/-- How a value at a place departs from a schema. -/
def violationsAt (definitions : Definitions) (schema : Schema) (place : List String) :
    Json → List SchemaViolation
  | .arr items =>
    match schema.resolve definitions with
    | array items' => itemViolations definitions items' place 0 items
    | schema => (scalarFaults schema (.arr items)).map (⟨place, ·⟩)
  | .obj members =>
    match schema.resolve definitions with
    | object properties required =>
      memberViolations definitions properties place members
        ++ (memberFaults properties required members).map (⟨place, ·⟩)
    | schema => (scalarFaults schema (.obj members)).map (⟨place, ·⟩)
  | value => (scalarFaults (schema.resolve definitions) value).map (⟨place, ·⟩)

/-- How the items of an array depart from their schema, the first of which has the given number. -/
def itemViolations (definitions : Definitions) (schema : Schema) (place : List String)
    (index : Nat) : List Json → List SchemaViolation
  | [] => []
  | item :: rest =>
    violationsAt definitions schema (place ++ [toString index]) item
      ++ itemViolations definitions schema place (index + 1) rest

/-- How the members of an object depart from their schemas. -/
def memberViolations (definitions : Definitions) (properties : List (String × Schema))
    (place : List String) : List (String × Json) → List SchemaViolation
  | [] => []
  | (name, value) :: rest =>
    (match property? properties name with
      | some schema => violationsAt definitions schema (place ++ [name]) value
      | none => [])
      ++ memberViolations definitions properties place rest

end

/-- How a value departs from a schema. -/
def violations (definitions : Definitions) (schema : Schema) (value : Json) :
    List SchemaViolation :=
  violationsAt definitions schema [] value

/-- Any text. -/
def anyText : Schema := string 0 none

/-- Targets in a row. -/
def targets : Schema := array (named "target")

/-- The schema of a target. -/
def target : Schema :=
  object
    [("name", string 1 none),
      ("phys_bin_path", string 0 (some (HexPath.pattern, HexPath.patternText))),
      ("phys_dev_path", anyText),
      ("location_code", anyText),
      ("mru_id", integer 0 4294967295),
      ("children", targets)]
    ["name"]

/-- The schema of a document. -/
def targetDocument : Schema :=
  object [("location_code", anyText), ("targets", targets)] ["targets"]

/-- The named schemas of a document. -/
def definitions : Definitions := [("target", target)]

end Schema

/-- How a JSON value departs from the schema of target documents. -/
def TargetDocument.schemaViolations (value : Json) : List SchemaViolation :=
  Schema.violations Schema.definitions Schema.targetDocument value

end FirstFailure
