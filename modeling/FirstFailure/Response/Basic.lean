import FirstFailure.Package.Basic
import FirstFailure.Response.Frame
/-!
# Responses and their wire form

`Response.encode` writes the response that `Frame.read` and `Groups.read` take apart.
-/

namespace FirstFailure

/-- The answer to a chip operation. -/
structure Response where
  value : Bytes := []
  commandClass : UInt8 := 0xA8
  command : UInt8 := 0x01
  status : Status := ⟨.operationSuccessful, .operationSuccessful⟩
  packages : List Package := []
deriving Repr, DecidableEq, Inhabited

namespace Response

/-- Put the framing around the bytes of a region, well-formed or not. The region is padded with
zeros to whole words, so that the distance lands on the header; a distance of more than 32 bits
loses its high bits. -/
def frameRegion (response : Response) (region : Bytes) : Bytes :=
  let regionWords := (region.length + (wordSize - 1)) / wordSize
  response.value
    ++ Bytes.ofU16 headerMagic ++ [response.commandClass, response.command]
    ++ Bytes.ofU32 response.status.toWord
    ++ region ++ List.replicate (regionWords * wordSize - region.length) 0
    ++ Bytes.ofNat wordSize (2 + regionWords + 1)

/-- The wire form of a response with its packages. -/
def encode (response : Response) : Except EncodeError Bytes :=
  (Package.encodeAll response.packages).map response.frameRegion

end Response

end FirstFailure
