import OpcUa.LimitCheck
import OpcUa.MessageContext
import OpcUa.NamespaceStack

/-!
Writers of binary data. A writer yields the octets that it appends, the state that it leaves and, if
it fails, the cause; octets written before a failure stay written. Writers are put together in
sequence, and the parts after a failure are not run. Scopes for nesting levels and namespaces close
whether their body fails or not.
-/

namespace OpcUa

structure Writer.State where
  context : MessageContext
  nesting : Nat
  namespaces : NamespaceStack

structure Writer.Output where
  octets : Octets
  failure : Option Error
  state : Writer.State

def Writer : Type := Writer.State → Writer.Output

namespace Writer

def done : Writer := fun state => ⟨[], none, state⟩

def emit (octets : Octets) : Writer := fun state => ⟨octets, none, state⟩

def fail (error : Error) : Writer := fun state => ⟨[], some error, state⟩

def andThen (first second : Writer) : Writer := fun state =>
  let before := first state
  match before.failure with
  | some _ => before
  | none =>
      let after := second before.state
      ⟨before.octets ++ after.octets, after.failure, after.state⟩

instance : Append Writer := ⟨andThen⟩

def optional (present : Bool) (writer : Writer) : Writer := if present then writer else done

/-- Writers in sequence, after chunks of octets that are already written, last first. -/
def allOnto (chunks : List Octets) : List Writer → Writer
  | [], state => ⟨chunks.reverse.flatten, none, state⟩
  | writer :: writers, state =>
      let output := writer state
      match output.failure with
      | some error => ⟨(output.octets :: chunks).reverse.flatten, some error, output.state⟩
      | none => allOnto (output.octets :: chunks) writers output.state

/-- Writers in sequence. -/
def all (writers : List Writer) : Writer := allOnto [] writers

theorem allOnto_eq (chunks : List Octets) (writers : List Writer) (state : State) :
    allOnto chunks writers state =
      { all writers state with
        octets := chunks.reverse.flatten ++ (all writers state).octets } := by
  induction writers generalizing chunks state with
  | nil => simp [all, allOnto]
  | cons writer writers induction =>
      simp only [all, allOnto]
      cases failed : (writer state).failure with
      | some error => simp
      | none =>
          simp only
          rw [induction ((writer state).octets :: chunks), induction [(writer state).octets]]
          simp

theorem all_nil : all [] = done := rfl

theorem all_cons (writer : Writer) (writers : List Writer) :
    all (writer :: writers) = writer ++ all writers := by
  funext state
  change allOnto [] (writer :: writers) state = andThen writer (all writers) state
  simp only [allOnto, andThen]
  cases failed : (writer state).failure with
  | some error =>
      cases output : writer state
      simp_all
  | none =>
      simp only
      rw [allOnto_eq]
      simp

/-- Fails where a check against the limits fails, and writes nothing. -/
def check (test : Limits → Except Error Unit) : Writer := fun state =>
  match test state.context.limits with
  | .ok _ => ⟨[], none, state⟩
  | .error error => ⟨[], some error, state⟩

/-- One nesting level deeper. -/
def nested (body : Writer) : Writer := fun state =>
  match state.context.limits.enter state.nesting with
  | .error error => ⟨[], some error, state⟩
  | .ok level =>
      let output := body { state with nesting := level }
      { output with state := { output.state with nesting := output.state.nesting - 1 } }

/-- Closes the innermost namespace, after a failure too; there has to be one. -/
def Output.closeNamespace (output : Output) : Output :=
  match output.state.namespaces.pop with
  | .ok namespaces => { output with state := { output.state with namespaces := namespaces } }
  | .error violation => { output with failure := some violation }

/-- Within a namespace that is named by its URI. -/
def inNamespace (uri : Octets) (body : Writer) : Writer := fun state =>
  (body { state with namespaces := state.namespaces.push uri }).closeNamespace

/-- Within the namespace of a structured type. -/
def inNamespaceOf (typeId : ExpandedNodeId) (body : Writer) : Writer := fun state =>
  inNamespace (state.context.namespaceUriOf typeId) body state

/-- With the wire form of an identifier, for which the namespace table may grow. -/
def withNodeId (id : ExpandedNodeId) (body : NodeId → Writer) : Writer := fun state =>
  let (resolved, context) := state.context.toNodeId id
  match resolved with
  | .error error => ⟨[], some error, { state with context := context }⟩
  | .ok nodeId => body nodeId { state with context := context }

def greatestLength : Nat := 0x7FFFFFFF

/-- The length of the body in front of it. A body that fails leaves zero for its length, and so does
one that is too long. -/
def sized (body : Writer) : Writer := fun state =>
  let output := body state
  let failure := match output.failure with
    | some error => some error
    | none =>
        if greatestLength < output.octets.length then some (.limit .bodyLength) else none
  let length := if failure = none then output.octets.length else 0
  ⟨Octets.littleEndian 4 length ++ output.octets, failure, output.state⟩

/-- A number in a field of `width` octets. -/
def number (width value : Nat) : Writer := emit (Octets.littleEndian width value)

def octet (value : UInt8) : Writer := emit [value]

def int32 (value : Int32) : Writer := number 4 value.toUInt32.toNat

def lengthField (length : Nat) : Writer :=
  if greatestLength < length then fail (.limit .lengthField) else number 4 length

/-- The length minus one, which says that there is nothing. -/
def noLength : Writer := int32 (-1)

end Writer

end OpcUa
