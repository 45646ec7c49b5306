import OpcUa.Proofs.Value.Traits

/-!
Rewritings of values: atoms, times and the tags of extension objects are replaced one by one, and a
structure in an extension object may be sealed, which replaces the object as a whole. A structure
that is not sealed gets the tag it brings itself, and a vacant place for one becomes no body.
Everything else stays. Two rewritings that agree on the parts of a value agree on the value.
-/

namespace OpcUa

structure Rewriting where
  atom : Atom → Atom
  time : DateTime → DateTime
  tag : ExpandedNodeId → ExpandedNodeId
  sealed? : Structure → Option ExtensionObject

namespace Rewriting

mutual

def value (rewriting : Rewriting) : Value → Value
  | .atom held => .atom (rewriting.atom held)
  | .extensionObject held => .extensionObject (extensionObject rewriting held)
  | .dataValue held => .dataValue (dataValue rewriting held)
  | .variant held => .variant (variant rewriting held)

def values (rewriting : Rewriting) : List Value → List Value
  | [] => []
  | first :: rest => value rewriting first :: values rewriting rest

def variant (rewriting : Rewriting) : Variant → Variant
  | .null => .null
  | .scalar held => .scalar (value rewriting held)
  | .array type held sizes => .array type (values rewriting held) sizes

def dataValue (rewriting : Rewriting) : DataValue → DataValue
  | .mk held status source sourcePico server serverPico =>
      .mk (variant rewriting held) status (rewriting.time source) sourcePico (rewriting.time server)
        serverPico

def extensionObject (rewriting : Rewriting) : ExtensionObject → ExtensionObject
  | .absent typeId => .absent (rewriting.tag typeId)
  | .binary typeId body => .binary (rewriting.tag typeId) body
  | .xml typeId body => .xml (rewriting.tag typeId) body
  | .json typeId body => .json (rewriting.tag typeId) body
  | .object _ body =>
      match rewriting.sealed? body with
      | some held => held
      | none => .ofStructure (record rewriting body)
  | .vacant typeId => .absent (rewriting.tag typeId)

def record (rewriting : Rewriting) : Structure → Structure
  | .mk schema held => .mk schema (fields rewriting held)

def fields (rewriting : Rewriting) : List FieldValue → List FieldValue
  | [] => []
  | first :: rest => field rewriting first :: fields rewriting rest

def field (rewriting : Rewriting) : FieldValue → FieldValue
  | .value held => .value (value rewriting held)
  | .array held => .array (variant rewriting held)
  | .list type held => .list type (values rewriting held)
  | .enumeration held => .enumeration held
  | .nested held => .nested (record rewriting held)
  | .faulty fault => .faulty fault

end

/-- The rewritings do the same to every part with the traits. -/
structure AgreeOn (traits : Traits) (one other : Rewriting) : Prop where
  atom : ∀ held, traits.atom held → one.atom held = other.atom held
  time : ∀ held, traits.time held → one.time held = other.time held
  tag : ∀ held : ExtensionObject, traits.object held → one.tag held.typeId = other.tag held.typeId
  sealed? : ∀ typeId held, traits.object (.object typeId held) →
    one.sealed? held = other.sealed? held

variable {traits : Traits} {one other : Rewriting}

mutual

theorem AgreeOn.value (agree : AgreeOn traits one other) (held : Value)
    (found : traits.OfValue held) : one.value held = other.value held := by
  cases held with
  | atom held =>
      unfold Traits.OfValue at found
      simp only [Rewriting.value, agree.atom held found]
  | extensionObject held =>
      unfold Traits.OfValue at found
      simp only [Rewriting.value, agree.extension_object held found]
  | dataValue held =>
      unfold Traits.OfValue at found
      simp only [Rewriting.value, agree.data_value held found]
  | variant held =>
      unfold Traits.OfValue at found
      simp only [Rewriting.value, agree.variant held found]

theorem AgreeOn.values (agree : AgreeOn traits one other) (held : List Value)
    (found : traits.OfValues held) : one.values held = other.values held := by
  cases held with
  | nil => simp only [Rewriting.values]
  | cons first rest =>
      unfold Traits.OfValues at found
      simp only [Rewriting.values, agree.value first found.1, agree.values rest found.2]

theorem AgreeOn.variant (agree : AgreeOn traits one other) (held : Variant)
    (found : traits.OfVariant held) : one.variant held = other.variant held := by
  cases held with
  | null => simp only [Rewriting.variant]
  | scalar held =>
      unfold Traits.OfVariant at found
      simp only [Rewriting.variant, agree.value held found]
  | array type held sizes =>
      unfold Traits.OfVariant at found
      simp only [Rewriting.variant, agree.values held found.2]

theorem AgreeOn.data_value (agree : AgreeOn traits one other) (held : DataValue)
    (found : traits.OfDataValue held) : one.dataValue held = other.dataValue held := by
  cases held with
  | mk held status source sourcePico server serverPico =>
      unfold Traits.OfDataValue at found
      simp only [Rewriting.dataValue, agree.variant held found.1, agree.time source found.2.1,
        agree.time server found.2.2]

theorem AgreeOn.extension_object (agree : AgreeOn traits one other) (held : ExtensionObject)
    (found : traits.OfObject held) : one.extensionObject held = other.extensionObject held := by
  cases held with
  | object typeId body =>
      unfold Traits.OfObject at found
      simp only [Rewriting.extensionObject, agree.sealed? typeId body found.1,
        agree.record body found.2]
  | vacant typeId =>
      unfold Traits.OfObject at found
      simp only [Rewriting.extensionObject]
      exact congrArg _ (agree.tag _ found)
  | absent typeId =>
      unfold Traits.OfObject at found
      simp only [Rewriting.extensionObject]
      exact congrArg _ (agree.tag _ found)
  | binary typeId body =>
      unfold Traits.OfObject at found
      simp only [Rewriting.extensionObject]
      exact congrArg (ExtensionObject.binary · body) (agree.tag _ found)
  | xml typeId body =>
      unfold Traits.OfObject at found
      simp only [Rewriting.extensionObject]
      exact congrArg (ExtensionObject.xml · body) (agree.tag _ found)
  | json typeId body =>
      unfold Traits.OfObject at found
      simp only [Rewriting.extensionObject]
      exact congrArg (ExtensionObject.json · body) (agree.tag _ found)

theorem AgreeOn.record (agree : AgreeOn traits one other) (held : Structure)
    (found : traits.OfStructure held) : one.record held = other.record held := by
  cases held with
  | mk schema held =>
      unfold Traits.OfStructure at found
      simp only [Rewriting.record, agree.fields held found.2]

theorem AgreeOn.fields (agree : AgreeOn traits one other) (held : List FieldValue)
    (found : traits.OfFields held) : one.fields held = other.fields held := by
  cases held with
  | nil => simp only [Rewriting.fields]
  | cons first rest =>
      unfold Traits.OfFields at found
      simp only [Rewriting.fields, agree.field first found.1, agree.fields rest found.2]

theorem AgreeOn.field (agree : AgreeOn traits one other) (held : FieldValue)
    (found : traits.OfField held) : one.field held = other.field held := by
  cases held with
  | value held =>
      unfold Traits.OfField at found
      simp only [Rewriting.field, agree.value held found]
  | array held =>
      unfold Traits.OfField at found
      simp only [Rewriting.field, agree.variant held found]
  | list type held =>
      unfold Traits.OfField at found
      simp only [Rewriting.field, agree.values held found.2]
  | enumeration held => simp only [Rewriting.field]
  | nested held =>
      unfold Traits.OfField at found
      simp only [Rewriting.field, agree.record held found]
  | faulty fault => simp only [Rewriting.field]

end

theorem values_length (rewriting : Rewriting) (held : List Value) :
    (rewriting.values held).length = held.length := by
  induction held with
  | nil => simp only [values]
  | cons first rest induction => simp only [values, List.length_cons, induction]

theorem value_type (rewriting : Rewriting) (same : ∀ held, (rewriting.atom held).type = held.type)
    (held : Value) : (rewriting.value held).type = held.type := by
  cases held with
  | atom held => simp only [value, Value.type, same]
  | _ => simp only [value, Value.type]

end Rewriting

end OpcUa
