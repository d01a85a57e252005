import FirstFailure.Bytes
import FirstFailure.Response.Status
import FirstFailure.Text.Hex
/-!
# Framing of a response

A response is read from its end. The last word holds the distance in words from the header to the
end of the buffer, that word included:

    value | header word | status word | package region | distance

The header word starts with `C0 DE`; its other half holds the command class and the command that
are answered. What stands before the header is the value of the operation.
-/

namespace FirstFailure

/-- A stretch `[start, stop)` of a buffer. -/
structure Region where
  start : Nat
  stop : Nat
deriving Repr, DecidableEq, Inhabited

/-- The bytes of a buffer that a region covers. -/
def Region.slice (region : Region) (buffer : Bytes) : Bytes :=
  (buffer.drop region.start).take (region.stop - region.start)

/-- Why a buffer is not a framed response. -/
inductive FrameError where
  /-- The buffer cannot hold a header, a status and a distance. -/
  | bufferTooSmall (len : Nat)
  /-- The distance points before the buffer, or leaves no room for header and status. -/
  | invalidHeaderOffset (distanceWords : UInt32) (len : Nat)
  /-- The word at the header's place does not start with the magic number. -/
  | invalidMagic (header : UInt32)
deriving Repr, DecidableEq

/-- The least length of a response: header, status and distance. -/
def minResponseLength : Nat := 3 * wordSize

/-- The text of a framing error. -/
def FrameError.message : FrameError → String
  | bufferTooSmall len =>
    "response buffer too small: " ++ toString len ++ " bytes (minimum "
      ++ toString minResponseLength ++ ")"
  | invalidHeaderOffset distanceWords len =>
    "invalid header offset: distance of " ++ toString distanceWords.toNat ++ " words in a "
      ++ toString len ++ " byte buffer"
  | invalidMagic header =>
    "invalid response magic header 0x" ++ Hex.padded .lower 8 header.toNat

/-- The first half of every header word. -/
def headerMagic : UInt16 := 0xC0DE

/-- The framing of a response buffer. The region refers to the buffer the frame was read from. -/
structure Frame where
  value : Bytes
  status : Status
  headerOffset : Nat
  region : Option Region
deriving Repr, DecidableEq

/-- The distance word at the end of a buffer. -/
def trailingDistance (buffer : Bytes) : UInt32 :=
  Bytes.toU32 (buffer.drop (buffer.length - wordSize))

/-- Read the framing of a buffer. When packages are wanted and anything follows the status word,
the frame tells their region, which ends before the distance word. -/
def Frame.read (buffer : Bytes) (wantPackages : Bool) : Except FrameError Frame :=
  let len := buffer.length
  if len < minResponseLength then .error (.bufferTooSmall len)
  else
    let distanceWords := trailingDistance buffer
    let distance := distanceWords.toNat * wordSize
    if len < distance then .error (.invalidHeaderOffset distanceWords len)
    else
      let headerOffset := len - distance
      match buffer.drop headerOffset with
      | m1 :: m0 :: c1 :: c0 :: s3 :: s2 :: s1 :: s0 :: rest =>
        if Bytes.toU16 [m1, m0] = headerMagic then
          .ok {
            value := buffer.take headerOffset
            status := .ofWord (Bytes.toU32 [s3, s2, s1, s0])
            headerOffset
            region :=
              if wantPackages ∧ rest ≠ [] then
                some ⟨headerOffset + 2 * wordSize, len - wordSize⟩
              else none }
        else .error (.invalidMagic (Bytes.toU32 [m1, m0, c1, c0]))
      | _ => .error (.invalidHeaderOffset distanceWords len)

end FirstFailure
