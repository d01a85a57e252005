import FirstFailure.Json.Reading
import FirstFailure.Text.Hex
import FirstFailure.Yaml.Basic
/-!
# What plain scalars mean

A plain scalar may spell nothing, a truth value, a whole number or a number with a fraction or an
exponent; anything else, and whatever is quoted, is text. `Yaml.toJson?` turns a node into a JSON
value by these rules.
-/

namespace FirstFailure.Yaml

/-- The meaning of a scalar. -/
inductive Scalar where
  | null
  | bool (value : Bool)
  | int (value : Int)
  /-- A number, or `none` for an infinite one and for what is no number. -/
  | real (value : Option Binary64)
  | text (value : String)

/-- Whether a plain scalar spells nothing. -/
def spellsNull (text : String) : Bool :=
  text = "" || text = "~" || text = "null" || text = "Null" || text = "NULL"

/-- The truth value that a plain scalar spells. -/
def truthValue? (text : String) : Option Bool :=
  if text = "true" || text = "True" || text = "TRUE" then some true
  else if text = "false" || text = "False" || text = "FALSE" then some false
  else none

/-- The number that digits of a base spell; there has to be one digit at least. -/
def numberOf? (base : Nat) (digits : List Char) : Option Nat :=
  if digits.isEmpty then none
  else digits.foldlM
    (fun n c => (Hex.digitValue? c).bind fun d => if d < base then some (n * base + d) else none) 0

/-- A text without a plus sign in front. -/
def withoutPlus : List Char → List Char
  | '+' :: rest => rest
  | text => text

/-- Whether a text is a number with a leading zero, which counts as text. A sign may stand in
front. -/
def hasLeadingZero (text : List Char) : Bool :=
  let digits := match text with
    | '+' :: rest => rest
    | '-' :: rest => rest
    | _ => text
  match digits with
  | '0' :: d :: rest => (d :: rest).all fun c => '0' ≤ c && c ≤ '9'
  | _ => false

/-- The magnitude of a whole number: digits behind `0x`, `0o` or `0b`, or decimal digits. -/
def magnitude? (text : List Char) : Option Nat :=
  match text with
  | '0' :: 'x' :: digits => numberOf? 16 digits
  | '0' :: 'o' :: digits => numberOf? 8 digits
  | '0' :: 'b' :: digits => numberOf? 2 digits
  | digits => numberOf? 10 digits

/-- The whole number from zero that a plain scalar spells. -/
def unsigned? (text : List Char) : Option Nat :=
  if hasLeadingZero text then none else magnitude? (withoutPlus text)

/-- The bound of unsigned numbers; beyond it a scalar is not a whole number. -/
def unsignedBound : Nat := Nat.pow 2 128

/-- The bound of negative numbers; beyond it a scalar is not a whole number. -/
def negativeBound : Nat := Nat.pow 2 127

/-- The whole number that a plain scalar spells. -/
def integer? (text : List Char) : Option Int :=
  match unsigned? text with
  | some n => if n < unsignedBound then some n else none
  | none =>
    match text with
    | '-' :: digits =>
      if hasLeadingZero text then none
      else (magnitude? digits).bind fun n => if n ≤ negativeBound then some (-(n : Int)) else none
    | _ => none

/-- Split a text behind its leading decimal digits. -/
def spanDigits (text : List Char) : List Char × List Char :=
  text.span fun c => '0' ≤ c && c ≤ '9'

/-- The exponent at the end of a number, zero if there is none. -/
def exponent? (text : List Char) : Option Int :=
  match text with
  | [] => some 0
  | e :: rest =>
    if e = 'e' || e = 'E' then
      match rest with
      | '-' :: digits => (numberOf? 10 digits).map fun n => -(n : Int)
      | '+' :: digits => (numberOf? 10 digits).map fun n => (n : Int)
      | digits => (numberOf? 10 digits).map fun n => (n : Int)
    else none

/-- The finite number that a decimal spells: digits with or without a point, then perhaps an
exponent. -/
def decimal? (text : List Char) : Option Binary64 :=
  let (negative, text) := match text with
    | '-' :: rest => (true, rest)
    | _ => (false, text)
  let (whole, rest) := spanDigits text
  let (fraction, rest) := match rest with
    | '.' :: rest => spanDigits rest
    | _ => ([], rest)
  (numberOf? 10 (whole ++ fraction)).bind fun digits =>
    (exponent? rest).bind fun power =>
      Binary64.ofDecimal negative digits (power - fraction.length)

/-- The number with a fraction or an exponent that a plain scalar spells. -/
def real? (text : String) : Option (Option Binary64) :=
  let chars := text.toList
  if [".inf", ".Inf", ".INF", "+.inf", "+.Inf", "+.INF", "-.inf", "-.Inf", "-.INF",
      ".nan", ".NaN", ".NAN"].contains text then some none
  else if hasLeadingZero chars then none
  else match chars with
    | '+' :: '-' :: _ => none
    | _ => (decimal? (withoutPlus chars)).map some

/-- The meaning of a plain scalar. -/
def resolve (text : String) : Scalar :=
  if spellsNull text then .null
  else match truthValue? text with
    | some value => .bool value
    | none =>
      match integer? text.toList with
      | some value => .int value
      | none =>
        match real? text with
        | some value => .real value
        | none => .text text

/-- The JSON value of a plain scalar. A whole number needs 64 bits, signed or not; what is not
finite is `null`. -/
def Scalar.toJson? : Scalar → Option Json
  | null => some .null
  | bool value => some (.bool value)
  | int value =>
    if -9223372036854775808 ≤ value ∧ value < 18446744073709551616 then some (.int value)
    else none
  | real (some value) => some (.real value)
  | real none => some .null
  | text value => some (.str value)

/-- How many collections may be nested in each other. -/
def maxDepth : Nat := 128

mutual

/-- The JSON value of a node inside which so many collections may still be nested. -/
def toJsonAt? (room : Nat) : Yaml → Option Json
  | scalar text true => some (.str text)
  | scalar text false => (resolve text).toJson?
  | seq items => if room = 0 then none else (itemsToJson? (room - 1) items).map .arr
  | map entries => if room = 0 then none else (entriesToJson? (room - 1) [] entries).map .obj

/-- The JSON values of nodes. -/
def itemsToJson? (room : Nat) : List Yaml → Option (List Json)
  | [] => some []
  | item :: rest => do return (← toJsonAt? room item) :: (← itemsToJson? room rest)

/-- The members that entries make, on top of those before them. Names are the texts of the keys, in
order; of entries with one name the last counts. -/
def entriesToJson? (room : Nat) (members : List (String × Json)) :
    List (Yaml × Yaml) → Option (List (String × Json))
  | [] => some members
  | (key, value) :: rest => do
    entriesToJson? room (Json.setSorted (← key.text?) (← toJsonAt? room value) members) rest

end

/-- The JSON value of a node. -/
def toJson? (node : Yaml) : Option Json := node.toJsonAt? maxDepth

end FirstFailure.Yaml
