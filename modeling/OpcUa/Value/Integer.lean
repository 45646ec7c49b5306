import OpcUa.Text.Number
import OpcUa.Value

/-!
The integers among the atoms: signed and unsigned, of 8 to 64 bits. Each type has a least and a
greatest number, and decimal text is read within these bounds.
-/

namespace OpcUa

inductive IntegerType where
  | sbyte | byte | int16 | uint16 | int32 | uint32 | int64 | uint64
deriving DecidableEq

namespace IntegerType

def ofType? : BuiltInType → Option IntegerType
  | .atom .sbyte => some .sbyte
  | .atom .byte => some .byte
  | .atom .int16 => some .int16
  | .atom .uint16 => some .uint16
  | .atom .int32 => some .int32
  | .atom .uint32 => some .uint32
  | .atom .int64 => some .int64
  | .atom .uint64 => some .uint64
  | _ => none

def least : IntegerType → Int
  | .sbyte => -0x80
  | .int16 => -0x8000
  | .int32 => -0x80000000
  | .int64 => -0x8000000000000000
  | _ => 0

def greatest : IntegerType → Int
  | .sbyte => 0x7F
  | .byte => 0xFF
  | .int16 => 0x7FFF
  | .uint16 => 0xFFFF
  | .int32 => 0x7FFFFFFF
  | .uint32 => 0xFFFFFFFF
  | .int64 => 0x7FFFFFFFFFFFFFFF
  | .uint64 => 0xFFFFFFFFFFFFFFFF

/-- The atom of the type that holds a number, taken modulo the width of the type. -/
def atom : IntegerType → Int → Atom
  | .sbyte, number => .sbyte (Int8.ofInt number)
  | .byte, number => .byte (UInt8.ofInt number)
  | .int16, number => .int16 (Int16.ofInt number)
  | .uint16, number => .uint16 (UInt16.ofInt number)
  | .int32, number => .int32 (Int32.ofInt number)
  | .uint32, number => .uint32 (UInt32.ofInt number)
  | .int64, number => .int64 (Int64.ofInt number)
  | .uint64, number => .uint64 (UInt64.ofInt number)

/-- The number of the type that decimal text denotes. -/
def parse? (type : IntegerType) (text : Octets) : Option Int :=
  Text.parseInteger? type.least type.greatest text

end IntegerType

end OpcUa
