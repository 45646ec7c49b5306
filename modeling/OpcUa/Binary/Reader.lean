import OpcUa.LimitCheck
import OpcUa.MessageContext
import OpcUa.NamespaceStack

/-!
Readers of binary data. A reader takes octets off the front of its window and yields a value or the
cause of its failure, and in both cases the state that it leaves: the position, what is left of the
window, and the open scopes. Scopes close whether their body fails or not. A window narrowed for the
body of an extension object is widened again only when the body has been read without failure.
-/

namespace OpcUa

/-- `input` is what the window still holds, from the position on. -/
structure Reader.State where
  position : Nat
  input : Octets
  nesting : Nat
  namespaces : NamespaceStack

inductive Reader.Outcome (Result : Type) where
  | done (result : Result) (state : Reader.State)
  | failed (error : Error) (state : Reader.State)

def Reader (Result : Type) : Type := MessageContext → Reader.State → Reader.Outcome Result

namespace Reader

instance : Monad Reader where
  pure result := fun _ state => .done result state
  bind first next := fun context state =>
    match first context state with
    | .done result state => next result context state
    | .failed error state => .failed error state

def fail {Result : Type} (error : Error) : Reader Result := fun _ state => .failed error state

def malformed {Result : Type} (cause : DecodingError) : Reader Result := fail (.decoding cause)

/-- A result that was computed without reading. -/
def ofExcept {Result : Type} : Except Error Result → Reader Result
  | .ok result => pure result
  | .error error => fail error

def take (count : Nat) : Reader Octets := fun _ state =>
  let taken := state.input.take count
  if taken.length < count then
    .failed (.decoding (.endOfData count state.input.length)) state
  else
    .done taken
      { state with position := state.position + count, input := state.input.drop count }

/-- Fails unless the window holds that many octets more; takes none. -/
def require (count : Nat) (cause : DecodingError) : Reader Unit := fun _ state =>
  if (state.input.take count).length < count then .failed (.decoding cause) state
  else .done () state

def check (test : Limits → Except Error Unit) : Reader Unit := fun context state =>
  match test context.limits with
  | .ok _ => .done () state
  | .error error => .failed error state

def schemaFor? (id : ExpandedNodeId) : Reader (Option Schema) := fun context state =>
  .done (context.schemaFor? .binary id) state

def Outcome.mapState {Result : Type} (change : State → State) : Outcome Result → Outcome Result
  | .done result state => .done result (change state)
  | .failed error state => .failed error (change state)

def nested {Result : Type} (body : Reader Result) : Reader Result := fun context state =>
  match context.limits.enter state.nesting with
  | .error error => .failed error state
  | .ok level =>
      (body context { state with nesting := level }).mapState fun left =>
        { left with nesting := left.nesting - 1 }

/-- Closes the innermost namespace, after a failure too; there has to be one. -/
def Outcome.closeNamespace {Result : Type} : Outcome Result → Outcome Result
  | .done result state =>
      match state.namespaces.pop with
      | .ok namespaces => .done result { state with namespaces := namespaces }
      | .error violation => .failed violation state
  | .failed error state =>
      match state.namespaces.pop with
      | .ok namespaces => .failed error { state with namespaces := namespaces }
      | .error violation => .failed violation state

def inNamespace {Result : Type} (uri : Octets) (body : Reader Result) : Reader Result :=
  fun context state =>
    (body context { state with namespaces := state.namespaces.push uri }).closeNamespace

def inNamespaceOf {Result : Type} (typeId : ExpandedNodeId) (body : Reader Result) :
    Reader Result := fun context state =>
  inNamespace (context.namespaceUriOf typeId) body context state

/-- Reads the next octets with a body that sees no further. The result of the body stands when it
has used them all; when it has left some, they are given back raw instead. After a failure the
window stays as the body left it. -/
def within {Result : Type} (length : Nat) (body : Reader Result) : Reader (Except Octets Result) :=
  fun context state =>
    let raw := state.input.take length
    match body context { state with input := raw } with
    | .failed error left => .failed error left
    | .done result left =>
        .done (if left.input = [] then .ok result else .error raw)
          { left with position := state.position + raw.length, input := state.input.drop length }

/-- Results of one reader, in sequence, after results already read, last first. -/
def manyOnto {Result : Type} (read : Reader Result) (results : List Result) :
    Nat → Reader (List Result)
  | 0 => fun _ state => .done results.reverse state
  | count + 1 => fun context state =>
      match read context state with
      | .done result state => manyOnto read (result :: results) count context state
      | .failed error state => .failed error state

def many {Result : Type} (count : Nat) (read : Reader Result) : Reader (List Result) :=
  manyOnto read [] count

/-- A number in a field of `width` octets. -/
def number (width : Nat) : Reader Nat := do
  let octets ← take width
  return Octets.ofLittleEndian octets

def octet : Reader UInt8 := do
  return UInt8.ofNat (← number 1)

def uint16 : Reader UInt16 := do
  return UInt16.ofNat (← number 2)

def uint32 : Reader UInt32 := do
  return UInt32.ofNat (← number 4)

def uint64 : Reader UInt64 := do
  return UInt64.ofNat (← number 8)

def int32 : Reader Int32 := do
  return (← uint32).toInt32

/-- A length; a negative one says that there is nothing. -/
def lengthField : Reader (Option Nat) := do
  let length ← int32
  return if length < 0 then none else some length.toInt.toNat

def optional {Result : Type} (present : Bool) (absent : Result) (read : Reader Result) :
    Reader Result :=
  if present then read else pure absent

end Reader

end OpcUa
