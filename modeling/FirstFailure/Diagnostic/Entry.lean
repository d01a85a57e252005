import FirstFailure.Diagnostic.Callout
import FirstFailure.Severity
/-!
# Error-log entries

An entry reports one error: what it is, how bad it is, the data collected for it and the callouts.
Keys of the user data may repeat, and their order matters.
-/

namespace FirstFailure

/-- Ordered pairs of key and value. -/
abbrev UserData := List (String × String)

/-- The key of the last pair of every entry, which tells the chip's position. -/
def positionKey : String := "SRC6"

/-- The value of the position pair: the chip's position in the high half of a word. -/
def positionValue (chipPosition : UInt32) : String :=
  toString (chipPosition.toNat * 65536 % 4294967296)

/-- An entry of the error log. -/
structure Entry where
  message : String
  severity : Severity
  logId : Option UInt16 := none
  userData : UserData
  callouts : List Callout
  attachment : Option Bytes := none
deriving Repr, DecidableEq

/-- The entries made from one response, in order. -/
abbrev Entries := List Entry

namespace Entry

/-- The values of a key in order. -/
def valuesOf (entry : Entry) (key : String) : List String :=
  (entry.userData.filter fun pair => pair.1 = key).map (·.2)

/-- The document of an entry; an absent log id or attachment is left out. -/
def toJson (entry : Entry) : Json :=
  .obj ([
    ("message", .str entry.message),
    ("severity", .str entry.severity.name)]
    ++ (match entry.logId with
      | some logId => [("log_id", Json.ofNat logId.toNat)]
      | none => [])
    ++ [
    ("user_data", .ofList Json.ofPair entry.userData),
    ("callouts", .ofList Callout.toJson entry.callouts)]
    ++ match entry.attachment with
      | some attachment => [("attachment", Json.ofBytes attachment)]
      | none => [])

/-- Read an entry. -/
def ofJson? (value : Json) : Option Entry :=
  match value.fields?
      ["message", "severity", "log_id", "user_data", "callouts", "attachment"] with
  | some [message, severity, logId, userData, callouts, attachment] => do
    return {
      message := ← Json.required Json.string? message
      severity := ← Json.required (Json.constant? Severity.all Severity.name) severity
      logId := ← Json.optional Json.uint16? logId
      userData := ← Json.required (Json.list? Json.pair?) userData
      callouts := ← Json.required (Json.list? Callout.ofJson?) callouts
      attachment := ← Json.optional Json.bytes? attachment }
  | _ => none

end Entry

namespace Entries

/-- The document of the entries. -/
def toJson (entries : Entries) : Json := .ofList Entry.toJson entries

/-- Read entries. -/
def ofJson? : Json → Option Entries := Json.list? Entry.ofJson?

end Entries

end FirstFailure
