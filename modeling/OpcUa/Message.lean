import OpcUa.Binary.Decode
import OpcUa.Binary.Encode
import OpcUa.Error.Message
import OpcUa.Value.Equality

/-!
Whole messages. A message is a structure; in the binary format it follows the identifier of its
binary encoding, by which the receiver finds the schema, and nothing comes after it. Failures that a
structure's own fields raise are reported as failures of the message; a broken rule for building
values passes through as it is. A number that names no format yields no octets when it is written
to, and is refused when it is read from, in both cases with the check of the message size.
-/

namespace OpcUa

inductive WrittenFormat where
  | binary
  | unassigned

/-- Non-reversible JSON leaves out the types of what it holds and can be written only. -/
inductive ReadFormat where
  | binary
  | nonReversibleJson
  | unassigned

namespace Message

def writer (message : Structure) : Writer :=
  Writer.withNodeId message.schema.binaryId Writer.nodeId ++ Writer.body message

/-- An error inside a message of that type, as the sender sees it. -/
def errorWhileEncoding (name : Octets) (error : Error) : Error :=
  match error.kind with
  | .memory => .limit (.memoryWhileEncoding name)
  | .failure => .encoding (.failedMessage name error.message)
  | .argument => .encoding (.failedMessage name error.message)
  | .index => .encoding (.failedMessage name error.message)
  | _ => error

def encode (context : MessageContext) (format : WrittenFormat) (message : Structure) :
    Except Error Octets × MessageContext :=
  let output := match format with
    | .binary => writer message ⟨context, 0, []⟩
    | .unassigned => Writer.done ⟨context, 0, []⟩
  let context := output.state.context
  match output.failure with
  | some error => (.error (errorWhileEncoding message.schema.name error), context)
  | none =>
      match context.limits.checkLength .message output.octets.length with
      | .error error => (.error error, context)
      | .ok _ => (.ok output.octets, context)

def finished : Reader Unit := fun _ state =>
  if state.input = [] then .done () state
  else .failed (.decoding (.trailing state.input.length)) state

def reader : Reader Structure := do
  let id ← Reader.nodeId
  match ← Reader.schemaFor? (ExpandedNodeId.ofNodeId id) with
  | none => Reader.malformed (.unknownMessage id.text)
  | some schema =>
      let message ← Reader.body schema
      finished
      return message

/-- An error inside a message, as the receiver sees it. -/
def errorWhileDecoding (error : Error) : Error :=
  match error.kind with
  | .memory => .limit .memoryWhileDecoding
  | .failure => .decoding (.malformedMessage error.message)
  | .argument => .decoding (.malformedMessage error.message)
  | .index => .decoding (.malformedMessage error.message)
  | _ => error

def read (context : MessageContext) (format : ReadFormat) (octets : Octets) :
    Except Error Structure :=
  match format with
  | .binary =>
      match reader context ⟨0, octets, 0, []⟩ with
      | .done message _ => .ok message
      | .failed error _ => .error (errorWhileDecoding error)
  | .nonReversibleJson => .error (.unsupported .nonReversibleJson)
  | .unassigned => .error (.unsupported .unassignedFormat)

/-- Whether a message is of the expected type; types are compared in their absolute form. -/
def hasType (context : MessageContext) (expected : ExpandedNodeId) (message : Structure) : Bool :=
  context.toAbsolute expected = context.toAbsolute message.schema.typeId

/-- The message that octets hold, which has to be of the expected type if one is named. -/
def decode (context : MessageContext) (format : ReadFormat) (octets : Octets)
    (expected : Option ExpandedNodeId) : Except Error Structure := do
  context.limits.checkLength .message octets.length
  let message ← read context format octets
  match expected with
  | none => return message
  | some expected =>
      if hasType context expected message then return message
      else throw (.decoding (.unexpectedMessage expected.text message.schema.name))

def takeBody (envelope : ExtensionObject) : Except Error Structure :=
  match envelope.decoded? with
  | some body => .ok body
  | none => .error (.decoding (.unknownMessage envelope.typeId.text))

def envelope (message : Structure) : ExtensionObject := .ofStructure message

end Message

end OpcUa
