/-!
# Byte strings and big-endian numbers

A buffer is a list of bytes. A number stands in a buffer with its most significant byte first:
`Bytes.toNat` reads such a number and `Bytes.ofNat` writes one of a given width, keeping the low
bytes of a number that does not fit.
-/

namespace FirstFailure

/-- A buffer of bytes. -/
abbrev Bytes := List UInt8

/-- Bytes in a word, the unit in which lengths are counted on the wire. -/
def wordSize : Nat := 4

namespace Bytes

/-- The number whose base 256 digits are the bytes, most significant first. -/
def toNat (bytes : Bytes) : Nat :=
  bytes.foldl (fun n b => n * 256 + b.toNat) 0

/-- The `width` low base 256 digits of `n`, most significant first. -/
def ofNat : (width n : Nat) → Bytes
  | 0, _ => []
  | width + 1, n => ofNat width (n / 256) ++ [UInt8.ofNat n]

/-- The bytes of a 16-bit number. -/
def ofU16 (n : UInt16) : Bytes := ofNat 2 n.toNat

/-- The bytes of a 32-bit number. -/
def ofU32 (n : UInt32) : Bytes := ofNat 4 n.toNat

/-- The 16-bit number written in the given bytes. -/
def toU16 (bytes : Bytes) : UInt16 := UInt16.ofNat bytes.toNat

/-- The 32-bit number written in the given bytes. -/
def toU32 (bytes : Bytes) : UInt32 := UInt32.ofNat bytes.toNat

end Bytes

end FirstFailure
