import Mathlib.Algebra.Ring.Nat
import OpcUa.Value

/-!
The volume of a value: how many elements and dimensions of arrays, octets of text, byte strings and
raw bodies, and diagnostic records below a first one it holds, at any depth. Whatever has a fixed
size is not counted, and neither is the type of a structure, which belongs to the schema.
-/

namespace OpcUa

def Identifier.volume : Identifier → Nat
  | .string text => text.length
  | .bytes content => content.length
  | _ => 0

def ExpandedNodeId.volume (id : ExpandedNodeId) : Nat :=
  id.nodeId.identifier.volume + id.namespaceUri.length

/-- The octets of text in diagnostic records. -/
def DiagnosticRecord.volumes (records : List DiagnosticRecord) : Nat :=
  (records.map fun record => record.additionalInfo.length).sum

def DiagnosticInfo.volume (info : DiagnosticInfo) : Nat :=
  info.depth + DiagnosticRecord.volumes (info.outer :: info.inner)

def Atom.volume : Atom → Nat
  | .string text => text.length
  | .byteString content => content.length
  | .xmlElement text => text.length
  | .nodeId id => id.identifier.volume
  | .expandedNodeId id => id.volume
  | .qualifiedName name => name.name.length
  | .localizedText held => held.locale.length + held.text.length
  | .diagnosticInfo held => held.volume
  | _ => 0

mutual

def Value.volume : Value → Nat
  | .atom held => held.volume
  | .extensionObject held => held.volume
  | .dataValue held => held.volume
  | .variant held => held.volume

/-- Each element counts beside what it holds. -/
def Value.volumes : List Value → Nat
  | [] => 0
  | first :: rest => first.volume + 1 + Value.volumes rest

def Variant.volume : Variant → Nat
  | .null => 0
  | .scalar held => held.volume
  | .array _ held sizes => Value.volumes held + sizes.length

def DataValue.volume : DataValue → Nat
  | .mk held _ _ _ _ _ => held.volume

def ExtensionObject.volume : ExtensionObject → Nat
  | .absent typeId => typeId.volume
  | .binary typeId body => typeId.volume + body.length
  | .xml typeId body => typeId.volume + body.length
  | .json typeId body => typeId.volume + body.length
  | .object _ body => body.volume
  | .vacant typeId => typeId.volume

def Structure.volume : Structure → Nat
  | .mk _ held => FieldValue.volumes held

def FieldValue.volumes : List FieldValue → Nat
  | [] => 0
  | first :: rest => first.volume + FieldValue.volumes rest

def FieldValue.volume : FieldValue → Nat
  | .value held => held.volume
  | .array held => held.volume
  | .list _ held => Value.volumes held
  | .enumeration _ => 0
  | .nested held => held.volume
  | .faulty _ => 0

end

theorem Value.volumes_eq_sum (held : List Value) :
    Value.volumes held = (held.map fun value => value.volume + 1).sum := by
  induction held with
  | nil => rfl
  | cons first rest induction => simp only [Value.volumes, induction, List.map_cons, List.sum_cons]

theorem ExpandedNodeId.volume_of_node_id (id : NodeId) :
    (ofNodeId id).volume = id.identifier.volume := rfl

end OpcUa
