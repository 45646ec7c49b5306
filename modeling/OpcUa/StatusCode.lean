import OpcUa.Octets

/-!
Status codes: thirty-two bits, the two highest of which carry the severity and the sixteen lowest
further information. Known codes have a symbolic name, which ignores the lower half.
-/

namespace OpcUa

structure StatusCode where
  code : UInt32
deriving DecidableEq

namespace StatusCode

def good : StatusCode := ⟨0⟩

def isGood (status : StatusCode) : Bool := status.code &&& 0xC0000000 = 0

def isUncertain (status : StatusCode) : Bool := status.code &&& 0xC0000000 = 0x40000000

def isBad (status : StatusCode) : Bool := status.code &&& 0x80000000 ≠ 0

/-- The code without the information bits. -/
def codeBits (status : StatusCode) : UInt32 := status.code &&& 0xFFFF0000

def badEncodingError : StatusCode := ⟨0x80060000⟩

def badDecodingError : StatusCode := ⟨0x80070000⟩

def badEncodingLimitsExceeded : StatusCode := ⟨0x80080000⟩

def badNodeIdInvalid : StatusCode := ⟨0x80330000⟩

def badNotSupported : StatusCode := ⟨0x803D0000⟩

def badTypeMismatch : StatusCode := ⟨0x80740000⟩

/-- The codes that have a symbolic name. -/
def symbols : List (UInt32 × String) := [
  (0x00000000, "Good"),
  (0x40000000, "Uncertain"),
  (0x80000000, "Bad"),
  (0x80010000, "BadUnexpectedError"),
  (0x80020000, "BadInternalError"),
  (0x80030000, "BadOutOfMemory"),
  (0x80040000, "BadResourceUnavailable"),
  (0x80050000, "BadCommunicationError"),
  (0x80060000, "BadEncodingError"),
  (0x80070000, "BadDecodingError"),
  (0x80080000, "BadEncodingLimitsExceeded"),
  (0x80090000, "BadUnknownResponse"),
  (0x800A0000, "BadTimeout"),
  (0x800B0000, "BadServiceUnsupported"),
  (0x800C0000, "BadShutdown"),
  (0x800F0000, "BadNothingToDo"),
  (0x80100000, "BadTooManyOperations"),
  (0x80110000, "BadDataTypeIdUnknown"),
  (0x80320000, "BadWaitingForInitialData"),
  (0x80330000, "BadNodeIdInvalid"),
  (0x80340000, "BadNodeIdUnknown"),
  (0x80350000, "BadAttributeIdInvalid"),
  (0x80380000, "BadDataEncodingInvalid"),
  (0x80390000, "BadDataEncodingUnsupported"),
  (0x803A0000, "BadNotReadable"),
  (0x803B0000, "BadNotWritable"),
  (0x803C0000, "BadOutOfRange"),
  (0x803D0000, "BadNotSupported"),
  (0x803E0000, "BadNotFound"),
  (0x80740000, "BadTypeMismatch"),
  (0x809B0000, "BadNoData"),
  (0x809D0000, "BadDataLost"),
  (0x80B80000, "BadRequestTooLarge"),
  (0x80B90000, "BadResponseTooLarge"),
  (0x40900000, "UncertainLastUsableValue"),
  (0x40930000, "UncertainSensorNotAccurate"),
  (0x00300000, "GoodClamped"),
  (0x00A50000, "GoodNoData"),
  (0x00A60000, "GoodMoreData")]

/-- The symbolic name of a code, empty when it has none. -/
def symbol (status : StatusCode) : String :=
  match symbols.find? fun entry => entry.1 = status.codeBits with
  | some entry => entry.2
  | none => ""

/-- The code that a symbolic name stands for. -/
def ofSymbol? (name : Octets) : Option StatusCode :=
  (symbols.find? fun entry => Octets.ofString entry.2 = name).map fun entry => ⟨entry.1⟩

end StatusCode

end OpcUa
