import OpcUa.Binary.Session
import OpcUa.Proofs.Reader.Discipline
import OpcUa.Proofs.Value.Alike

/-!
The bodies of extension objects, which are as long as they say whatever they hold. A reader that
knows types leaves every body at the place where a reader that knows none leaves it. So what the
first reads the second reads as well, up to the same octet; the values differ only where a structure
was read from a body, which then stays the octets that the structure was read from.
-/

namespace OpcUa

def MessageContext.bare (context : MessageContext) : MessageContext := { context with registry := [] }

/-- The octets are those of the structure that is registered under the identifier, which is one that
stands on the wire. -/
structure MessageContext.HoldsIn (context : MessageContext) (typeId : ExpandedNodeId) (raw : Octets)
    (body : Structure) : Prop where
  wire : typeId = .ofNodeId typeId.nodeId
  known : context.schemaFor? .binary typeId = some body.schema
  read : ∃ position nesting namespaces left,
    Reader.objectWith Reader.value body.schema context ⟨position, raw, nesting, namespaces⟩ =
      .done body left ∧ left.input = []

/-- An extension object and the one that is read where no types are known. -/
def ExtensionObject.OpenedFrom (context : MessageContext) : ExtensionObject → ExtensionObject → Prop
  | .object tag body, .binary typeId raw =>
      tag = body.schema.typeId ∧ context.HoldsIn typeId raw body
  | .object _ _, _ => False
  | held, raw => held = raw

/-- What becomes of the octets of a body: the structure of the type that is registered under the
identifier if it uses all of them, and else the octets themselves. -/
inductive ExtensionObject.MadeFrom (context : MessageContext) (typeId : ExpandedNodeId)
    (window : Reader.State) : ExtensionObject → Prop
  | unknown (missing : context.schemaFor? .binary typeId = none) :
      ExtensionObject.MadeFrom context typeId window (.binary typeId window.input)
  | unfinished {schema : Schema} {body : Structure} {left : Reader.State}
      (known : context.schemaFor? .binary typeId = some schema)
      (read : Reader.objectWith Reader.value schema context window = .done body left)
      (more : left.input ≠ []) :
      ExtensionObject.MadeFrom context typeId window (.binary typeId window.input)
  | object {schema : Schema} {body : Structure} {left : Reader.State}
      (known : context.schemaFor? .binary typeId = some schema)
      (read : Reader.objectWith Reader.value schema context window = .done body left)
      (whole : left.input = []) :
      ExtensionObject.MadeFrom context typeId window (.ofStructure body)

namespace Reader

def bodyAfter (typeId : ExpandedNodeId) (length : Nat) : Reader ExtensionObject := do
  check fun limits => limits.checkLength .byteString length
  require length .bodyPastEnd
  match ← schemaFor? typeId with
  | none => return .binary typeId (← take length)
  | some schema =>
      match ← within length (objectWith value schema) with
      | .ok body => return .ofStructure body
      | .error raw => return .binary typeId raw

/-- What stands in front of a body: the identifier of its type, how it is encoded and how long it
is. -/
def bodyHeader : Reader (NodeId × UInt8 × Option Nat) := do
  let id ← nodeId
  let encoding ← octet
  let length ← lengthField
  return (id, encoding, length)

theorem extension_object_eq : extensionObjectWith value = nested (do
    let id ← nodeId
    let encoding ← octet
    if encoding = 0x00 then return .absent (.ofNodeId id)
    else if encoding = 0x02 then return .xml (.ofNodeId id) (← xmlElement)
    else if encoding = 0x01 then
      match ← lengthField with
      | none => return .absent (.ofNodeId id)
      | some length => bodyAfter (.ofNodeId id) length
    else malformed (.bodyEncoding encoding)) := rfl

section

variable {context : MessageContext} {state start left : State} {id : NodeId}
  {typeId : ExpandedNodeId} {length : Nat} {held : ExtensionObject}

theorem extension_object_done
    (header : bodyHeader context { state with nesting := state.nesting + 1 } =
      .done (id, 0x01, some length) start) :
    extensionObjectWith value context state = .done held left ↔
      ∃ inner, context.limits.enter state.nesting = .ok (state.nesting + 1) ∧
        bodyAfter (.ofNodeId id) length context start = .done held inner ∧
        left = { inner with nesting := inner.nesting - 1 } := by
  obtain ⟨_, named, identified, header⟩ := then_done.mp header
  obtain ⟨_, marked, encoded, header⟩ := then_done.mp header
  obtain ⟨_, _, measured, ends⟩ := then_done.mp header
  cases ends
  have present : ¬(0x01 : UInt8) = 0x00 := by decide
  have octets : ¬(0x01 : UInt8) = 0x02 := by decide
  rw [extension_object_eq, nested_done]
  simp only [bind_apply, identified, encoded, if_neg present, if_neg octets, if_true, measured]

theorem object_schema {read : BuiltInType → Reader Value} {schema : Schema} {body : Structure}
    (done : objectWith read schema context state = .done body left) : body.schema = schema := by
  obtain ⟨inner, inside, _, _⟩ := in_namespace_of_done.mp done
  obtain ⟨held, _, _, ends⟩ := then_done.mp inside
  cases ends
  rfl

/-- Whatever became of it, a body ends where its length says. -/
theorem body_after_done (done : bodyAfter typeId length context state = .done held left) :
    context.limits.checkLength .byteString length = .ok () ∧ length ≤ state.input.length ∧
      left = { state with
        position := state.position + length, input := state.input.drop length } ∧
      held.MadeFrom context typeId { state with input := state.input.take length } := by
  obtain ⟨_, _, checked, further⟩ := then_done.mp done
  obtain ⟨passes, unmoved⟩ := check_done.mp checked
  rw [unmoved] at further
  obtain ⟨_, _, required, rest⟩ := then_done.mp further
  obtain ⟨room, unmoved⟩ := require_done.mp required
  rw [unmoved] at rest
  obtain ⟨found, _, looked, last⟩ := then_done.mp rest
  cases looked
  cases known : context.schemaFor? .binary typeId with
  | none =>
      rw [known] at last
      obtain ⟨raw, _, taken, ends⟩ := then_done.mp last
      obtain ⟨_, rfl, rfl⟩ := take_done.mp taken
      cases ends
      exact ⟨passes, room, rfl, .unknown known⟩
  | some schema =>
      rw [known] at last
      obtain ⟨outcome, _, opened, ends⟩ := then_done.mp last
      obtain ⟨body, inner, inside, rfl, rfl⟩ := within_done.mp opened
      have follows := object_disciplined schema context context.registers_any
        { state with input := state.input.take length }
      rw [inside] at follows
      have size : (state.input.take length).length = length := List.length_take_of_le room
      have place : { inner with
          position := state.position + (state.input.take length).length
          input := state.input.drop length } =
          { state with position := state.position + length, input := state.input.drop length } := by
        rw [size, follows.1, follows.2.1]
      rw [place] at ends
      by_cases complete : inner.input = []
      · rw [if_pos complete] at ends
        cases ends
        exact ⟨passes, room, rfl, .object known inside complete⟩
      · rw [if_neg complete] at ends
        cases ends
        exact ⟨passes, room, rfl, .unfinished known inside complete⟩

theorem made_from_cases {window : State} (made : held.MadeFrom context typeId window) :
    held = .binary typeId window.input ∨
      ∃ schema body inner, context.schemaFor? .binary typeId = some schema ∧
        objectWith value schema context window = .done body inner ∧ inner.input = [] ∧
        held = .ofStructure body := by
  cases made with
  | unknown missing => exact .inl rfl
  | unfinished known read more => exact .inl rfl
  | object known read whole => exact .inr ⟨_, _, _, known, read, whole, rfl⟩

/-- Where no types are known, a body stays as it is. -/
theorem body_after_bare (passes : context.limits.checkLength .byteString length = .ok ())
    (room : length ≤ state.input.length) :
    bodyAfter typeId length context.bare state = .done (.binary typeId (state.input.take length))
      { state with position := state.position + length, input := state.input.drop length } := by
  have checked : check (fun limits => limits.checkLength .byteString length) context.bare state =
      .done () state := check_done.mpr ⟨passes, rfl⟩
  have required : require length .bodyPastEnd context.bare state = .done () state :=
    require_done.mpr ⟨room, rfl⟩
  have taken : take length context.bare state = .done (state.input.take length) _ :=
    take_done.mpr ⟨room, rfl, rfl⟩
  have unknown : context.bare.schemaFor? .binary typeId = none := rfl
  simp only [bodyAfter, bind_apply, checked, required, schemaFor?, unknown, taken, pure_apply]

end

end Reader

end OpcUa
