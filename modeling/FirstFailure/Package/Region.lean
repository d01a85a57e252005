import FirstFailure.Package.Groups
import FirstFailure.Response.Frame
/-!
# Reading a region of packages

A region is a row of packages followed by fewer bytes than a package header. The length field of a
package says where the next one starts, so a malformed package makes the whole region unreadable.
-/

namespace FirstFailure

/-- Why a region cannot be read. Offsets count from the start of the buffer. -/
inductive RegionError where
  /-- A package does not start with the magic number. -/
  | invalidMagic (offset : Nat) (magic : UInt16)
  /-- A package claims fewer words than its header has. -/
  | packageTooShort (offset : Nat) (lengthWords : UInt16)
  /-- A package claims bytes behind the end of the region. -/
  | packageOverruns (offset size stop : Nat)
  /-- The region is not part of the buffer. -/
  | outOfBounds (region : Region) (len : Nat)
deriving Repr, DecidableEq

/-- The text of a region error. -/
def RegionError.message : RegionError → String
  | invalidMagic offset magic =>
    "invalid FFDC package magic 0x" ++ Hex.padded .lower 4 magic.toNat ++ " at offset "
      ++ toString offset
  | packageTooShort offset lengthWords =>
    "FFDC package at offset " ++ toString offset ++ " declares " ++ toString lengthWords.toNat
      ++ " words, less than the header"
  | packageOverruns offset size stop =>
    "FFDC package at offset " ++ toString offset ++ " (" ++ toString size
      ++ " bytes) overruns region end " ++ toString stop
  | outOfBounds region len =>
    "FFDC region " ++ toString region.start ++ ".." ++ toString region.stop
      ++ " lies outside the " ++ toString len ++ " byte buffer"

namespace Package

/-- Read the packages of a region that starts at `offset` and consists of the given bytes. The
first malformed package decides the error; of its faults the magic number counts before the length
and the length before the overrun. Fewer bytes than a header at the end are ignored. -/
def readAll (offset : Nat) : Bytes → Except RegionError (List Package)
  | m1 :: m0 :: n1 :: n0 :: q1 :: q0 :: commandClass :: command ::
      i1 :: i0 :: severity :: chipId :: r3 :: r2 :: r1 :: r0 :: rest =>
    let size := (Bytes.toU16 [n1, n0]).toNat * wordSize
    let dataLength := size - headerLength
    let data := rest.take dataLength
    if Bytes.toU16 [m1, m0] ≠ magic then
      .error (.invalidMagic offset (Bytes.toU16 [m1, m0]))
    else if (Bytes.toU16 [n1, n0]).toNat < headerWords then
      .error (.packageTooShort offset (Bytes.toU16 [n1, n0]))
    else if data.length < dataLength then
      .error (.packageOverruns offset size (offset + headerLength + rest.length))
    else
      match readAll (offset + size) (rest.drop dataLength) with
      | .ok others =>
        .ok ({
          logId := Bytes.toU16 [i1, i0]
          sequenceId := Bytes.toU16 [q1, q0]
          commandClass
          command
          severity := .ofRaw severity
          chipId
          returnCode := Bytes.toU32 [r3, r2, r1, r0]
          data } :: others)
      | .error e => .error e
  | _ => .ok []
termination_by bytes => bytes.length
decreasing_by
  simp only [List.length_cons, List.length_drop]
  omega

end Package

/-- Read the packages of a region of a buffer and group them by log id. -/
def Groups.read (buffer : Bytes) (region : Region) : Except RegionError Groups :=
  if region.stop < region.start ∨ buffer.length < region.stop then
    .error (.outOfBounds region buffer.length)
  else
    (Package.readAll region.start (region.slice buffer)).map Groups.ofList

end FirstFailure
