import FirstFailure.Bytes
import FirstFailure.Text.Hex
import FirstFailure.Text.Pattern
/-!
# Physical paths in text

The physical path of a target is a byte string, written as pairs of hexadecimal digits behind an
optional `0x` or `0X`. `HexPath.parse` reads such a text; `HexPath.pattern` says in one expression
which texts there are.
-/

namespace FirstFailure.HexPath

/-- Why a text is not a path. -/
inductive Fault where
  /-- Nothing follows the prefix. -/
  | empty
  /-- The first character that is not a digit. -/
  | notHexDigit (c : Char)
  /-- The number of digits is odd. -/
  | oddCount (digits : Nat)
deriving Repr, DecidableEq

/-- The text of a fault. -/
def Fault.message : Fault → String
  | empty => "empty path"
  | notHexDigit c => "'" ++ String.ofList [c] ++ "' is not a hex digit"
  | oddCount digits => "odd number of hex digits (" ++ toString digits ++ ")"

/-- The text behind the optional prefix. -/
def body : List Char → List Char
  | '0' :: 'x' :: rest => rest
  | '0' :: 'X' :: rest => rest
  | text => text

/-- The bytes of digits in pairs. -/
def bytesOfPairs : List Char → Bytes
  | high :: low :: rest =>
    UInt8.ofNat ((Hex.digitValue? high).getD 0 * 16 + (Hex.digitValue? low).getD 0)
      :: bytesOfPairs rest
  | _ => []

/-- The path that a text spells. -/
def parse (text : String) : Except Fault Bytes :=
  let digits := body text.toList
  if digits = [] then .error .empty
  else match digits.find? (fun c => !Hex.isDigit c) with
    | some c => .error (.notHexDigit c)
    | none =>
      if digits.length % 2 = 0 then .ok (bytesOfPairs digits) else .error (.oddCount digits.length)

/-- Whether a character is one of those given, as in a class of a pattern. -/
def anyOf (members : List Char) (c : Char) : Bool := members.contains c

/-- The digits of either case. -/
def digitClass : List Char :=
  ['0', '1', '2', '3', '4', '5', '6', '7', '8', '9',
    'a', 'b', 'c', 'd', 'e', 'f', 'A', 'B', 'C', 'D', 'E', 'F']

/-- Which texts spell a path. -/
def pattern : Pattern :=
  .andThen
    (.opt (.andThen (.one (anyOf ['0'])) (.one (anyOf ['x', 'X']))))
    (.plus (.andThen (.one (anyOf digitClass)) (.one (anyOf digitClass))))

/-- The pattern as it is shown to users. -/
def patternText : String := "^(0[xX])?([0-9a-fA-F]\x7b2\x7d)+$"

end FirstFailure.HexPath
