import Mathlib.Data.List.Forall2
import OpcUa.Binary.Encode
import OpcUa.Proofs.Value.Rewriting
import OpcUa.Text.Utf8
import OpcUa.Variant

/-!
What arrives when a value has travelled. Times are clamped to their range, absent indices of
diagnostic records become minus one, and the tag of an extension object becomes its wire form. A
structure arrives as itself where its type is registered, under the identifier that it brings
whatever its object was tagged with, and as the octets of its fields where it is not. A vacant place
for a structure arrives as no body. Beside this stand the shapes that values have to have, and what
the registry has to know, for the journey to go well.
-/

namespace OpcUa

/-- An absent index the way it is written by hand. -/
def DiagnosticRecord.tidyIndex (index : Int32) : Int32 := if 0 ≤ index then index else -1

def DiagnosticRecord.tidied (record : DiagnosticRecord) : DiagnosticRecord where
  symbolicId := tidyIndex record.symbolicId
  namespaceUri := tidyIndex record.namespaceUri
  locale := tidyIndex record.locale
  localizedText := tidyIndex record.localizedText
  additionalInfo := record.additionalInfo
  innerStatus := record.innerStatus

def DiagnosticInfo.tidied (info : DiagnosticInfo) : DiagnosticInfo :=
  ⟨info.outer.tidied, info.inner.map DiagnosticRecord.tidied⟩

def Atom.tidied : Atom → Atom
  | .diagnosticInfo held => .diagnosticInfo held.tidied
  | held => held

def Atom.received : Atom → Atom
  | .dateTime held => .dateTime held.clamped
  | held => held.tidied

/-- An identifier named by the index of its namespace; it stays as it is when there is none. -/
def MessageContext.wireForm (context : MessageContext) (id : ExpandedNodeId) : ExpandedNodeId :=
  match (context.toNodeId id).1 with
  | .ok nodeId => .ofNodeId nodeId
  | .error _ => id

/-- The identifier that an extension object has on the wire, before it takes its wire form. -/
def ExtensionObject.wireTag : ExtensionObject → ExpandedNodeId
  | .object _ body => body.schema.binaryId
  | held => held.typeId

def Variant.isPresent : Variant → Bool
  | .null => false
  | _ => true

namespace Rewriting

/-- Values with nothing changed but the absent indices of diagnostic records. -/
def tidied : Rewriting where
  atom := Atom.tidied
  time := id
  tag := id
  sealed? _ := none

/-- Values as they arrive where every structure's type is registered. -/
def normal (context : MessageContext) : Rewriting where
  atom := Atom.received
  time := DateTime.clamped
  tag := context.wireForm
  sealed? _ := none

/-- Values as they arrive in a context, which may not know the types of all structures. -/
def received (context : MessageContext) : Rewriting where
  atom := Atom.received
  time := DateTime.clamped
  tag := context.wireForm
  sealed? held :=
    match context.schemaFor? .binary (context.wireForm held.schema.binaryId) with
    | some _ => none
    | none =>
        some (.binary (context.wireForm held.schema.binaryId)
          (Writer.all (Writer.fields held.fields) ⟨context, 0, []⟩).octets)

variable {context : MessageContext} {held : Structure}

theorem sealed_of_unknown
    (unknown : context.schemaFor? .binary (context.wireForm held.schema.binaryId) = none) :
    (received context).sealed? held =
      some (.binary (context.wireForm held.schema.binaryId)
        (Writer.all (Writer.fields held.fields) ⟨context, 0, []⟩).octets) := by
  simp only [received, unknown]

theorem sealed_of_found {found : Schema}
    (known : context.schemaFor? .binary (context.wireForm held.schema.binaryId) = some found) :
    (received context).sealed? held = none := by
  simp only [received, known]

end Rewriting

def Identifier.HasValidText : Identifier → Prop
  | .string text => Text.isValidUtf8 text
  | _ => True

def DiagnosticInfo.HasValidText (info : DiagnosticInfo) : Prop :=
  ∀ record ∈ info.outer :: info.inner, Text.isValidUtf8 record.additionalInfo

def Atom.HasValidText : Atom → Prop
  | .string text => Text.isValidUtf8 text
  | .xmlElement text => Text.isValidUtf8 text
  | .nodeId id => id.identifier.HasValidText
  | .expandedNodeId id => id.nodeId.identifier.HasValidText ∧ Text.isValidUtf8 id.namespaceUri
  | .qualifiedName name => Text.isValidUtf8 name.name
  | .localizedText held => Text.isValidUtf8 held.locale ∧ Text.isValidUtf8 held.text
  | .diagnosticInfo held => held.HasValidText
  | _ => True

def ExtensionObject.HasValidText (held : ExtensionObject) : Prop :=
  held.wireTag.nodeId.identifier.HasValidText ∧
    match held with
    | .xml _ body => Text.isValidUtf8 body
    | _ => True

/-- Whether a field of this kind reads what was written as this value: the types are the same, and
an enumerated value stands for a number. -/
def FieldKind.Fits : FieldKind → FieldValue → Prop
  | .value type, .value held => held.type = type
  | .array _, .array .null => True
  | .array typeNumber, .array (.array type _ _) => BuiltInType.carrier? typeNumber = some type
  | .list type, .list held _ => held = type
  | .enumeration, .enumeration _ => True
  | .nested schema, .nested held => held.schema = schema
  | _, _ => False

/-- Dimensions that say how a matrix of that many elements is laid out, or none for an array. -/
def AreDimensions (sizes : List Int32) (count : Nat) : Prop :=
  sizes = [] ∨ 2 ≤ sizes.length ∧ elementCount? sizes = some count

namespace Traits

/-- Text is UTF-8, elements have the type of their array and fill its dimensions, and a structure
holds what the fields of its schema read. -/
def wellFormed : Traits where
  atom := Atom.HasValidText
  time _ := True
  elements type held sizes :=
    (∀ value ∈ held, value.type = type) ∧ AreDimensions sizes held.length
  object := ExtensionObject.HasValidText
  fields schema held := List.Forall₂ (fun field value => field.kind.Fits value) schema.fields held

def ofObjects (object : ExtensionObject → Prop) : Traits where
  atom _ := True
  time _ := True
  elements _ _ _ := True
  object := object
  fields _ _ := True

/-- Structures are registered under their own schemas, and the tags of raw bodies are unknown. -/
def registered (context : MessageContext) : Traits := ofObjects fun
  | .object _ body =>
      context.schemaFor? .binary (context.wireForm body.schema.binaryId) = some body.schema
  | .binary typeId _ => context.schemaFor? .binary (context.wireForm typeId) = none
  | _ => True

/-- No structure is registered under a foreign schema, and the tags of raw bodies are unknown. -/
def unmistaken (context : MessageContext) : Traits := ofObjects fun
  | .object _ body =>
      context.schemaFor? .binary (context.wireForm body.schema.binaryId) = none ∨
        context.schemaFor? .binary (context.wireForm body.schema.binaryId) = some body.schema
  | .binary typeId _ => context.schemaFor? .binary (context.wireForm typeId) = none
  | _ => True

end Traits

end OpcUa
