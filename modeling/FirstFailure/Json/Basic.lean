import FirstFailure.Number.Binary64
/-!
# JSON values

Numbers are kept apart by their spelling: an integer is an `int`, a number with a fraction or an
exponent is a `real`. The members of an object keep their order.
-/

namespace FirstFailure

/-- A JSON value. -/
inductive Json where
  | null
  | bool (value : Bool)
  | int (value : Int)
  | real (value : Binary64)
  | str (text : String)
  | arr (items : List Json)
  | obj (members : List (String × Json))
deriving Repr, Inhabited

namespace Json

/-- The value of a member of an object. -/
def member? (name : String) : List (String × Json) → Option Json
  | [] => none
  | (key, value) :: rest => if key = name then some value else member? name rest

/-- Set a member in members sorted by name; a member of that name is replaced. -/
def setSorted (name : String) (value : Json) : List (String × Json) → List (String × Json)
  | [] => [(name, value)]
  | (key, old) :: rest =>
    if name = key then (name, value) :: rest
    else if name < key then (name, value) :: (key, old) :: rest
    else (key, old) :: setSorted name value rest

/-- An array of the values of a list. -/
def ofList {α : Type} (encode : α → Json) (items : List α) : Json := arr (items.map encode)

/-- A pair of texts is an array of two strings. -/
def ofPair (pair : String × String) : Json := arr [str pair.1, str pair.2]

/-- A number below `2 ^ 8` or another unsigned width. -/
def ofNat (n : Nat) : Json := int n

/-- A byte string is an array of numbers. -/
def ofBytes (bytes : List UInt8) : Json := ofList (fun b => ofNat b.toNat) bytes

/-- A value that may be absent is `null` then. -/
def ofOption {α : Type} (encode : α → Json) : Option α → Json
  | none => null
  | some a => encode a

end Json

end FirstFailure
