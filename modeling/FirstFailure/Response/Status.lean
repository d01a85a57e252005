/-!
# Status of a chip operation

A status word carries a primary code in its high half and a secondary code in its low half. Codes
without a meaning of their own are kept as numbers, so no code is lost.
-/

namespace FirstFailure

/-- What became of the operation. -/
inductive PrimaryStatus where
  | operationSuccessful
  | invalidCommand
  | invalidData
  | userError
  | internalError
  | unsecureAccessDenied
  | genericExecutionFailure
  | other (code : UInt16)
deriving Repr, DecidableEq, Inhabited

namespace PrimaryStatus

/-- The status of a code. -/
def ofRaw (code : UInt16) : PrimaryStatus :=
  if code = 0x00 then operationSuccessful
  else if code = 0x01 then invalidCommand
  else if code = 0x02 then invalidData
  else if code = 0x03 then userError
  else if code = 0x04 then internalError
  else if code = 0x05 then unsecureAccessDenied
  else if code = 0xFE then genericExecutionFailure
  else other code

/-- The code of a status. -/
def raw : PrimaryStatus → UInt16
  | operationSuccessful => 0x00
  | invalidCommand => 0x01
  | invalidData => 0x02
  | userError => 0x03
  | internalError => 0x04
  | unsecureAccessDenied => 0x05
  | genericExecutionFailure => 0xFE
  | other code => code

/-- The name of a status; a code without a name is shown in decimal. -/
def name : PrimaryStatus → String
  | operationSuccessful => "OperationSuccessful"
  | invalidCommand => "InvalidCommand"
  | invalidData => "InvalidData"
  | userError => "UserError"
  | internalError => "InternalError"
  | unsecureAccessDenied => "UnsecureAccessDenied"
  | genericExecutionFailure => "GenericExecutionFailure"
  | other code => "Other(" ++ toString code.toNat ++ ")"

end PrimaryStatus

/-- Why the operation ended as it did. -/
inductive SecondaryStatus where
  | operationSuccessful
  | commandClassNotSupported
  | commandNotSupported
  | invalidAddressPassed
  | invalidTargetTypePassed
  | invalidChipletIdPassed
  | specifiedTargetNotPresent
  | specifiedTargetNotFunctional
  | commandNotAllowedInThisState
  | functionalityNotSupported
  | genericFailureInExecution
  | other (code : UInt16)
deriving Repr, DecidableEq, Inhabited

namespace SecondaryStatus

/-- The status of a code. -/
def ofRaw (code : UInt16) : SecondaryStatus :=
  if code = 0x00 then operationSuccessful
  else if code = 0x01 then commandClassNotSupported
  else if code = 0x02 then commandNotSupported
  else if code = 0x03 then invalidAddressPassed
  else if code = 0x04 then invalidTargetTypePassed
  else if code = 0x05 then invalidChipletIdPassed
  else if code = 0x06 then specifiedTargetNotPresent
  else if code = 0x07 then specifiedTargetNotFunctional
  else if code = 0x08 then commandNotAllowedInThisState
  else if code = 0x09 then functionalityNotSupported
  else if code = 0x0A then genericFailureInExecution
  else other code

/-- The code of a status. -/
def raw : SecondaryStatus → UInt16
  | operationSuccessful => 0x00
  | commandClassNotSupported => 0x01
  | commandNotSupported => 0x02
  | invalidAddressPassed => 0x03
  | invalidTargetTypePassed => 0x04
  | invalidChipletIdPassed => 0x05
  | specifiedTargetNotPresent => 0x06
  | specifiedTargetNotFunctional => 0x07
  | commandNotAllowedInThisState => 0x08
  | functionalityNotSupported => 0x09
  | genericFailureInExecution => 0x0A
  | other code => code

/-- The name of a status; a code without a name is shown in decimal. -/
def name : SecondaryStatus → String
  | operationSuccessful => "OperationSuccessful"
  | commandClassNotSupported => "CommandClassNotSupported"
  | commandNotSupported => "CommandNotSupported"
  | invalidAddressPassed => "InvalidAddressPassed"
  | invalidTargetTypePassed => "InvalidTargetTypePassed"
  | invalidChipletIdPassed => "InvalidChipletIdPassed"
  | specifiedTargetNotPresent => "SpecifiedTargetNotPresent"
  | specifiedTargetNotFunctional => "SpecifiedTargetNotFunctional"
  | commandNotAllowedInThisState => "CommandNotAllowedInThisState"
  | functionalityNotSupported => "FunctionalityNotSupported"
  | genericFailureInExecution => "GenericFailureInExecution"
  | other code => "Other(" ++ toString code.toNat ++ ")"

end SecondaryStatus

/-- Both halves of a status word. -/
structure Status where
  primary : PrimaryStatus
  secondary : SecondaryStatus
deriving Repr, DecidableEq, Inhabited

namespace Status

/-- The status of a status word: the primary code is its high half. -/
def ofWord (word : UInt32) : Status where
  primary := .ofRaw (UInt16.ofNat (word.toNat / 65536))
  secondary := .ofRaw (UInt16.ofNat word.toNat)

/-- The status word of a status. -/
def toWord (status : Status) : UInt32 :=
  UInt32.ofNat (status.primary.raw.toNat * 65536 + status.secondary.raw.toNat)

/-- The operation succeeded when both halves say so. -/
def isSuccess (status : Status) : Bool :=
  status.primary = .operationSuccessful ∧ status.secondary = .operationSuccessful

end Status

end FirstFailure
