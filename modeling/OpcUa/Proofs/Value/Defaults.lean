import Mathlib.Algebra.Ring.Nat
import OpcUa.Value.Default
import OpcUa.Value.Equality

/-!
What is left out when a default is left out. Some values are null without being equal to the default
of their type: a time before the least one, and an identifier of namespace zero that is null in
another kind than the number. Settling brings them into the default's form and keeps every other
value, and a value is default exactly if it equals the default of its type once it is settled.
-/

namespace OpcUa

/-- A time before the least one counts as the least. -/
def DateTime.settled (time : DateTime) : DateTime := if time.ticks < 0 then least else time

namespace NodeId

/-- The null identifiers of the kinds other than the number. -/
def otherNulls : List NodeId := [⟨0, .string []⟩, ⟨0, .guid .null⟩, ⟨0, .bytes []⟩]

def settled (id : NodeId) : NodeId := if id ∈ otherNulls then null else id

end NodeId

/-- An identifier with a URI or a server is none of the null ones. -/
def ExpandedNodeId.settled (id : ExpandedNodeId) : ExpandedNodeId :=
  if id.isAbsolute then id else ofNodeId id.nodeId.settled

def Atom.settled : Atom → Atom
  | .dateTime time => .dateTime time.settled
  | .nodeId id => .nodeId id.settled
  | .expandedNodeId id => .expandedNodeId id.settled
  | held => held

def ExtensionObject.settled : ExtensionObject → ExtensionObject
  | .absent typeId => .absent typeId.settled
  | .vacant typeId => .vacant typeId.settled
  | held => held

def DataValue.settled : DataValue → DataValue
  | .mk value status source sourcePico server serverPico =>
      .mk value status source.settled sourcePico server.settled serverPico

def Value.settled : Value → Value
  | .atom held => .atom held.settled
  | .extensionObject object => .extensionObject object.settled
  | .dataValue value => .dataValue value.settled
  | .variant value => .variant value

/-- The types that have null values besides their default. -/
def BuiltInType.settling : List BuiltInType :=
  [.atom .dateTime, .atom .nodeId, .atom .expandedNodeId, .extensionObject, .dataValue]

theorem DateTime.is_least_iff (time : DateTime) : time.isLeast = true ↔ time.settled = least := by
  obtain ⟨ticks⟩ := time
  simp only [isLeast, settled, least, decide_eq_true_eq]
  split
  · next before => exact iff_of_true (Int64.le_of_lt before) rfl
  · next inside =>
      rw [DateTime.mk.injEq]
      exact ⟨fun least => Int64.le_antisymm least (Int64.not_lt.mp inside), fun equal =>
        equal ▸ Int64.le_refl _⟩

theorem NodeId.is_null_iff (id : NodeId) : id.isNull = true ↔ id.settled = null := by
  obtain ⟨namespaceIndex, identifier⟩ := id
  cases identifier <;>
    simp [isNull, settled, otherNulls, null, Identifier.isNull, Guid.isNull]

theorem ExpandedNodeId.is_null_iff (id : ExpandedNodeId) :
    id.isNull = true ↔ id.settled = null := by
  obtain ⟨nodeId, uri, server⟩ := id
  by_cases remote : uri = [] ∧ server = 0
  · obtain ⟨rfl, rfl⟩ := remote
    simp [isNull, settled, null, isAbsolute, ofNodeId, NodeId.is_null_iff]
  · have absolute : isAbsolute ⟨nodeId, uri, server⟩ = true := by
      simp only [isAbsolute, Bool.or_eq_true, decide_eq_true_eq]
      rwa [← not_and_or]
    simp only [isNull, settled, absolute, if_true, null, ofNodeId, mk.injEq, Bool.and_eq_true,
      decide_eq_true_eq]
    exact ⟨fun both => absurd ⟨both.1.2, both.2⟩ remote, fun both => absurd both.2 remote⟩

theorem QualifiedName.is_null_iff (name : QualifiedName) : name.isNull = true ↔ name = null := by
  obtain ⟨namespaceIndex, name⟩ := name
  simp [isNull, null]

theorem LocalizedText.is_null_iff (text : LocalizedText) : text.isNull = true ↔ text = null := by
  obtain ⟨locale, text⟩ := text
  simp [isNull, null]

theorem ExtensionObject.is_null_iff (object : ExtensionObject) :
    object.isNull = true ↔ object.settled.same (.absent .null) = true := by
  cases object <;> simp [isNull, settled, same, ExpandedNodeId.is_null_iff]

theorem Variant.is_null_iff (value : Variant) : value.isNull = true ↔ value.same .null = true := by
  cases value <;> simp [isNull, same]

theorem DataValue.is_null_iff (value : DataValue) :
    value.isNull = true ↔ value.settled.same null = true := by
  obtain ⟨value, status, source, sourcePico, server, serverPico⟩ := value
  cases value with
  | null =>
      simp only [isNull, settled, null, same, Variant.same, Bool.and_eq_true, decide_eq_true_eq,
        DateTime.is_least_iff, true_and]
      -- The two timestamps are looked at one after the other here, and each before its fraction there.
      constructor
      · rintro ⟨⟨⟨⟨good, source⟩, server⟩, sourcePico⟩, serverPico⟩
        exact ⟨⟨⟨⟨good, source⟩, sourcePico⟩, server⟩, serverPico⟩
      · rintro ⟨⟨⟨⟨good, source⟩, sourcePico⟩, server⟩, serverPico⟩
        exact ⟨⟨⟨⟨good, source⟩, server⟩, sourcePico⟩, serverPico⟩
  | scalar _ => simp [isNull, settled, null, same, Variant.same]
  | array _ _ _ => simp [isNull, settled, null, same, Variant.same]

theorem Atom.is_default_iff (held : Atom) :
    held.isDefault = true ↔ held.settled.same (default held.type) = true := by
  cases held <;>
    simp [isDefault, settled, same, default, type, DateTime.is_least_iff, NodeId.is_null_iff,
      ExpandedNodeId.is_null_iff, QualifiedName.is_null_iff, LocalizedText.is_null_iff,
      Guid.isNull, DiagnosticInfo.isNull]

theorem Value.is_default_iff (value : Value) :
    value.isDefault = true ↔ value.settled.same (default value.type) = true := by
  cases value with
  | atom held => simp only [isDefault, settled, same, default, type, Atom.is_default_iff]
  | extensionObject object =>
      simp only [isDefault, settled, same, default, type, ExtensionObject.is_null_iff]
  | dataValue value => simp only [isDefault, settled, same, default, type, DataValue.is_null_iff]
  | variant value => simp only [isDefault, settled, same, default, type, Variant.is_null_iff]

/-! Values that equal the default have no null form to settle. -/

theorem Atom.settled_of_same {held : Atom} (equal : held.same (default held.type) = true) :
    held.settled = held := by
  cases held with
  | dateTime time =>
      obtain rfl : time = .least := by simpa [same, default, type] using equal
      rfl
  | nodeId id =>
      obtain rfl : id = .null := by simpa [same, default, type] using equal
      rfl
  | expandedNodeId id =>
      obtain rfl : id = .null := by simpa [same, default, type] using equal
      rfl
  | _ => rfl

theorem ExtensionObject.settled_of_same {object : ExtensionObject}
    (equal : object.same (.absent .null) = true) : object.settled = object := by
  cases object with
  | absent typeId | vacant typeId =>
      obtain rfl : typeId = .null := by simpa [same] using equal
      rfl
  | _ => rfl

theorem DataValue.settled_of_same {value : DataValue} (equal : value.same null = true) :
    value.settled = value := by
  obtain ⟨value, status, source, sourcePico, server, serverPico⟩ := value
  simp only [same, null, Bool.and_eq_true, decide_eq_true_eq] at equal
  obtain ⟨⟨⟨⟨-, rfl⟩, -⟩, rfl⟩, -⟩ := equal
  rfl

theorem Value.settled_of_same {value : Value} (equal : value.same (default value.type) = true) :
    value.settled = value := by
  cases value with
  | atom held =>
      exact congrArg Value.atom
        (Atom.settled_of_same (by simpa only [same, default, type] using equal))
  | extensionObject object =>
      exact congrArg Value.extensionObject
        (ExtensionObject.settled_of_same (by simpa only [same, default, type] using equal))
  | dataValue value =>
      exact congrArg Value.dataValue
        (DataValue.settled_of_same (by simpa only [same, default, type] using equal))
  | variant value => rfl

/-- The values of every other type are settled as they are. -/
theorem Value.settled_eq {value : Value} (outside : value.type ∉ BuiltInType.settling) :
    value.settled = value := by
  cases value with
  | atom held =>
      cases held with
      | dateTime _ | nodeId _ | expandedNodeId _ =>
          exact absurd (by simp [type, Atom.type, BuiltInType.settling]) outside
      | _ => rfl
  | extensionObject _ | dataValue _ =>
      exact absurd (by simp [type, BuiltInType.settling]) outside
  | variant _ => rfl

/-- A value may be left out as a default exactly if it equals the default of its type once it is
settled. The default itself may always be left out, and of the types that have one null value nothing
else. -/
theorem Value.left_out_iff_settles_to_default :
    (∀ value : Value, value.isDefault = true ↔ value.settled.same (default value.type) = true) ∧
    (∀ value : Value, value.same (default value.type) = true → value.isDefault = true) ∧
    ∀ value : Value, value.type ∉ BuiltInType.settling →
      (value.isDefault = true ↔ value.same (default value.type) = true) := by
  refine ⟨is_default_iff, fun value equal => ?_, fun value outside => ?_⟩
  · rw [is_default_iff, settled_of_same equal]
    exact equal
  · rw [is_default_iff, settled_eq outside]

/-- The negative zero equals the default and is left out, and a NaN is not; a data value with nothing
but a time before the least one settles to the default. -/
theorem Value.left_out_negative_zero_and_early_time :
    ((atom (.double ⟨0x8000000000000000⟩)).same (default (.atom .double)) = true ∧
      (atom (.double ⟨0x8000000000000000⟩)).isDefault = true) ∧
    ((atom (.float ⟨0x7FC00000⟩)).type ∉ BuiltInType.settling ∧
      (atom (.float ⟨0x7FC00000⟩)).isDefault = false) ∧
    (dataValue (.mk .null .good ⟨-1⟩ 0 .least 0)).isDefault = true := by
  have equal : (atom (.double ⟨0x8000000000000000⟩)).same (default (.atom .double)) = true := by
    simp only [same, default]
    decide
  have different : ¬(atom (.float ⟨0x7FC00000⟩)).same (default (.atom .float)) = true := by
    simp only [same, default]
    decide
  have settled : (dataValue (.mk .null .good ⟨-1⟩ 0 .least 0)).settled.same (default .dataValue) =
      true := by
    simp only [settled, DataValue.settled, same, default, DataValue.null, DataValue.same, Variant.same]
    decide
  exact ⟨⟨equal, left_out_iff_settles_to_default.2.1 _ equal⟩, ⟨by decide, Bool.eq_false_iff.mpr
    (mt (left_out_iff_settles_to_default.2.2 (atom (.float ⟨0x7FC00000⟩)) (by decide)).mp different)⟩,
    (left_out_iff_settles_to_default.1 _).mpr settled⟩

/-- An empty text in namespace zero is left out, and so is a time before the least one; neither
equals the default of its type. -/
theorem Value.left_out_besides_default :
    (atom (.nodeId ⟨0, .string []⟩)).isDefault = true ∧
      (atom (.nodeId ⟨0, .string []⟩)).same (default (.atom .nodeId)) = false ∧
      (atom (.dateTime ⟨-1⟩)).isDefault = true ∧
      (atom (.dateTime ⟨-1⟩)).same (default (.atom .dateTime)) = false := by
  simp only [same, default]
  decide

end OpcUa
