import FirstFailure.Procedure.Failure
import FirstFailure.Text.Hex
/-!
# Decoders of package data

A decoder turns the data of a package into failure data. `Decoder.raw` knows no procedure: it keeps
the return code and a dump of the data.
-/

namespace FirstFailure

/-- Why a package could not be decoded. -/
inductive DecodeError where
  /-- No definition for the return code. -/
  | unknownReturnCode (returnCode : UInt32)
  /-- The data does not fit the definition. -/
  | malformed (returnCode : UInt32) (reason : String)
deriving Repr, DecidableEq

/-- The text of a decoding error. -/
def DecodeError.message : DecodeError → String
  | unknownReturnCode returnCode =>
    "no FFDC definition for return code 0x" ++ Hex.padded .lower 8 returnCode.toNat
  | malformed returnCode reason =>
    "malformed FFDC data for return code 0x" ++ Hex.padded .lower 8 returnCode.toNat ++ ": "
      ++ reason

/-- From return code, data, chip position and chip type to failure data. -/
abbrev Decoder :=
  (returnCode : UInt32) → (data : Bytes) → (chipPosition : UInt32) → (chipType : ChipType) →
    Except DecodeError Failure

namespace Decoder

/-- The decoder for systems without definitions. It never fails and asks for no callouts. -/
def raw : Decoder := fun returnCode data chipPosition chipType =>
  .ok {
    kind := .unsupported
    message := DecodeError.message (.unknownReturnCode returnCode)
    returnCode := "0x" ++ Hex.padded .upper 8 returnCode.toNat
    returnCodeText := "Unrecognized hardware procedure return code"
    data :=
      [("CHIP_POS", toString chipPosition.toNat), ("CHIP_TYPE", chipType.key)]
        ++ if data.isEmpty then [] else [("RAW_DATA", String.ofList (Hex.wordDump data))]
    parts := []
    targets := []
    procedures := [] }

end Decoder

end FirstFailure
