import FirstFailure.Json.Basic
/-!
# Reading typed values from JSON

A reader gives `none` for a value of another shape. Numbers have to be integers of the right width.

A record is read from an object, where members of other names are ignored, or from an array that
lists the fields in order; an array may stop early, as if the other fields were absent, and may not
have items beyond the last field. A constant is written as its name, or as an object whose only
member has that name and the value `null`.
-/

namespace FirstFailure.Json

/-- The text of a string. -/
def string? : Json → Option String
  | str text => some text
  | _ => none

/-- The value of a truth value. -/
def bool? : Json → Option Bool
  | bool value => some value
  | _ => none

/-- An integer from zero up to but not including the bound. -/
def natBelow? (bound : Nat) : Json → Option Nat
  | int n => if 0 ≤ n ∧ n < bound then some n.toNat else none
  | _ => none

/-- An integer of 8 bits. -/
def uint8? (value : Json) : Option UInt8 := (value.natBelow? 256).map UInt8.ofNat

/-- An integer of 16 bits. -/
def uint16? (value : Json) : Option UInt16 := (value.natBelow? 65536).map UInt16.ofNat

/-- An integer of 32 bits. -/
def uint32? (value : Json) : Option UInt32 := (value.natBelow? 4294967296).map UInt32.ofNat

/-- The items of an array, each read by the same reader. -/
def list? {α : Type} (read : Json → Option α) : Json → Option (List α)
  | arr items => items.mapM read
  | _ => none

/-- An array of bytes. -/
def bytes? : Json → Option (List UInt8) := list? uint8?

/-- An array of exactly two strings. -/
def pair? : Json → Option (String × String)
  | arr [str first, str second] => some (first, second)
  | _ => none

/-- A value or `null`. -/
def option? {α : Type} (read : Json → Option α) : Json → Option (Option α)
  | null => some none
  | value => (read value).map some

/-- The fields of a record in the order of their names, each with its value if it is there. -/
def fields? (names : List String) : Json → Option (List (Option Json))
  | obj members => some (names.map (member? · members))
  | arr items =>
    if items.length ≤ names.length then
      some (items.map some ++ List.replicate (names.length - items.length) none)
    else none
  | _ => none

/-- A field that has to be there. -/
def required {α : Type} (read : Json → Option α) (field : Option Json) : Option α :=
  field.bind read

/-- A field with a default for when it is absent. -/
def orDefault {α : Type} (default : α) (read : Json → Option α) : Option Json → Option α
  | none => some default
  | some value => read value

/-- A field that may be absent or `null`. -/
def optional {α : Type} (read : Json → Option α) : Option Json → Option (Option α)
  | none => some none
  | some value => option? read value

/-- The name of a constant. -/
def constantName? : Json → Option String
  | str name => some name
  | obj [(name, null)] => some name
  | _ => none

/-- One of several constants. -/
def constant? {α : Type} (all : List α) (name : α → String) (value : Json) : Option α :=
  value.constantName?.bind fun text => all.find? fun constant => name constant = text

end FirstFailure.Json
