/-!
# Hexadecimal text

Digits and their values, numbers padded to a width, and the two dumps of a byte string: digit
pairs in a row, and digit pairs with a space between words.
-/

namespace FirstFailure.Hex

/-- Whether digits above nine are written with capital letters. -/
inductive Case where
  | lower
  | upper
deriving Repr, DecidableEq

/-- The digit for a value below sixteen. -/
def digit (letters : Case) (value : Nat) : Char :=
  if value < 10 then Char.ofNat ('0'.toNat + value)
  else match letters with
    | .lower => Char.ofNat ('a'.toNat + (value - 10))
    | .upper => Char.ofNat ('A'.toNat + (value - 10))

/-- The value of a digit of either case. -/
def digitValue? (c : Char) : Option Nat :=
  if '0' ≤ c ∧ c ≤ '9' then some (c.toNat - '0'.toNat)
  else if 'a' ≤ c ∧ c ≤ 'f' then some (c.toNat - 'a'.toNat + 10)
  else if 'A' ≤ c ∧ c ≤ 'F' then some (c.toNat - 'A'.toNat + 10)
  else none

/-- Whether a character is a digit of either case. -/
def isDigit (c : Char) : Bool := (digitValue? c).isSome

/-- The `width` low digits of a number. -/
def digits (letters : Case) : (width n : Nat) → List Char
  | 0, _ => []
  | width + 1, n => digits letters width (n / 16) ++ [digit letters (n % 16)]

/-- A number of at most `4 * width` bits, padded with zeros to `width` digits. -/
def padded (letters : Case) (width n : Nat) : String :=
  String.ofList (digits letters width n)

/-- The two digits of a byte. -/
def byteDigits (letters : Case) (byte : UInt8) : List Char := digits letters 2 byte.toNat

/-- The digits of a byte string, two for each byte. -/
def dump (letters : Case) (bytes : List UInt8) : List Char := bytes.flatMap (byteDigits letters)

/-- Capital digits of a byte string with one space between words of four bytes. -/
def wordDump : List UInt8 → List Char
  | a :: b :: c :: d :: e :: rest => dump .upper [a, b, c, d] ++ ' ' :: wordDump (e :: rest)
  | bytes => dump .upper bytes

end FirstFailure.Hex
