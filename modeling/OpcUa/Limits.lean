/-!
Ceilings on what may be written and read. A length limit of zero, or a nesting limit of zero, is no
limit; the limit on diagnostic records counts the inner ones and holds at zero too.
-/

namespace OpcUa

structure Limits where
  string : Nat
  byteString : Nat
  array : Nat
  message : Nat
  nesting : Nat
  diagnostic : Nat
deriving DecidableEq

def Limits.standard : Limits where
  string := 65535
  byteString := 1048560
  array := 65535
  message := 2097152
  nesting := 200
  diagnostic := 5

/-- The lengths that have a limit of their own. -/
inductive LengthKind where
  | string
  | byteString
  | array
  | message
deriving DecidableEq

def Limits.length (limits : Limits) : LengthKind → Nat
  | .string => limits.string
  | .byteString => limits.byteString
  | .array => limits.array
  | .message => limits.message

/-- Whether a size is within a limit, of which zero is none. -/
def withinLimit (limit size : Nat) : Bool := limit = 0 || size ≤ limit

end OpcUa
