import FirstFailure.Bytes
import FirstFailure.Severity
/-!
# Packages of first-failure data

On the wire a package is a header of four words followed by data of whole words:

    word 0   magic FBAD             length in words, header included
    word 1   sequence id            command class, command
    word 2   log id                 severity, chip id
    word 3   return code

`Package.encode` writes a package; it refuses data that the length field cannot describe.
-/

namespace FirstFailure

/-- One record of failure data. Packages with the same log id belong to the same error. -/
structure Package where
  logId : UInt16
  sequenceId : UInt16
  commandClass : UInt8
  command : UInt8
  severity : Severity
  chipId : UInt8
  returnCode : UInt32
  data : Bytes
deriving Repr, DecidableEq, Inhabited

/-- Why a package has no wire form. -/
inductive EncodeError where
  /-- The data is not a whole number of words. -/
  | unalignedData (len : Nat)
  /-- The length in words needs more than 16 bits. -/
  | packageTooLarge (size : Nat)
deriving Repr, DecidableEq

/-- The text of an encoding error. -/
def EncodeError.message : EncodeError → String
  | unalignedData len =>
    "FFDC data of " ++ toString len ++ " bytes is not a whole number of words"
  | packageTooLarge size =>
    "FFDC package of " ++ toString size ++ " bytes exceeds the 16-bit word length field"

namespace Package

/-- The first two bytes of every package. -/
def magic : UInt16 := 0xFBAD

/-- Words in a package header. -/
def headerWords : Nat := 4

/-- Bytes in a package header. -/
def headerLength : Nat := headerWords * wordSize

/-- The header of a package of the given length in words. -/
def header (package : Package) (lengthWords : Nat) : Bytes :=
  Bytes.ofU16 magic ++ Bytes.ofNat 2 lengthWords
    ++ Bytes.ofU16 package.sequenceId ++ [package.commandClass, package.command]
    ++ Bytes.ofU16 package.logId ++ [package.severity.raw, package.chipId]
    ++ Bytes.ofU32 package.returnCode

/-- The wire form of a package. Alignment is checked before size. -/
def encode (package : Package) : Except EncodeError Bytes :=
  let len := package.data.length
  let size := headerLength + len
  if len % wordSize ≠ 0 then .error (.unalignedData len)
  else if size / wordSize < 65536 then
    .ok (package.header (size / wordSize) ++ package.data)
  else .error (.packageTooLarge size)

/-- The wire forms of packages in a row, or the error of the first that has none. -/
def encodeAll : List Package → Except EncodeError Bytes
  | [] => .ok []
  | package :: rest => do
    let bytes ← package.encode
    let others ← encodeAll rest
    return bytes ++ others

end Package

end FirstFailure
