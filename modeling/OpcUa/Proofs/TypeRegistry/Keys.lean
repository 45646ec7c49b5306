import OpcUa.Proofs.NodeId.Text
import OpcUa.TypeRegistry

/-!
The texts under which the registry files identifiers. Which namespace and which identifier an entry
is for is what the text has to tell. It does so for namespaces that are known by index. A URI stands
in the text as it is, though, and may look like the end of another URI with the start of a string
after it; two identifiers are filed under one text exactly when they are the same or one of them has
such a URI.
-/

namespace OpcUa

/-- A namespace by its URI, or by its index where the URI is not known. -/
inductive EffectiveNamespace where
  | uri (uri : Octets)
  | index (index : UInt16)
deriving DecidableEq

/-- What an identifier means, wherever it is used: the server does not count, nor does an index
beside a URI. -/
structure CanonicalId where
  identifier : Identifier
  effective : EffectiveNamespace
deriving DecidableEq

def ExpandedNodeId.canonical (id : ExpandedNodeId) : CanonicalId where
  identifier := id.nodeId.identifier
  effective :=
    if id.namespaceUri ≠ [] then .uri id.namespaceUri
    else if id.nodeId.namespaceIndex = 0 then .uri coreNamespaceUri
    else .index id.nodeId.namespaceIndex

namespace CanonicalId

open Text

def key : CanonicalId → Octets
  | ⟨identifier, .uri uri⟩ =>
      Octets.ascii ['n', 's', 'u', '='] ++ uri ++ 0x3B :: identifier.text
  | ⟨identifier, .index index⟩ =>
      Octets.ascii ['n', 's', '='] ++ decimal index.toNat ++ 0x3B :: identifier.text

theorem key_canonical (id : ExpandedNodeId) : id.canonical.key = TypeRegistry.key id := by
  unfold ExpandedNodeId.canonical TypeRegistry.key NodeId.text
  by_cases absolute : id.namespaceUri ≠ []
  · simp only [if_pos absolute, key]
  · by_cases core : id.nodeId.namespaceIndex = 0
    · simp only [if_neg absolute, if_pos core, key]
    · simp only [if_neg absolute, if_neg core, key, List.append_assoc, List.singleton_append]

/-- The URI of the first goes on where that of the second ends, as the identifier of the second does
before it spells out that of the first. -/
def Shadows (first second : CanonicalId) : Prop :=
  ∃ uri middle, first.effective = .uri (uri ++ Octets.ascii [';', 's', '='] ++ middle) ∧
    second = ⟨.string (middle ++ 0x3B :: first.identifier.text), .uri uri⟩

def Confused (first second : CanonicalId) : Prop := first.Shadows second ∨ second.Shadows first

theorem not_shadows_of_plain {first second : CanonicalId}
    (plain : ∀ text, second.identifier = .string text → 0x3B ∉ text) : ¬first.Shadows second := by
  rintro ⟨uri, middle, _, rfl⟩
  exact plain _ rfl (List.mem_append_right _ List.mem_cons_self)

theorem key_eq_of_shadows {first second : CanonicalId} (shadows : first.Shadows second) :
    first.key = second.key := by
  obtain ⟨uri, middle, effective, rfl⟩ := shadows
  obtain ⟨identifier, _⟩ := first
  obtain rfl := effective
  have semicolon : ';'.toUInt8 = 0x3B := rfl
  simp [key, Identifier.text, Octets.ascii, semicolon]

/-- What stands before a last identifier, after the first semicolon: nothing, or the start of a
string that the last identifier ends. -/
theorem overhang {extra : Octets} {first second : Identifier}
    (same : 0x3B :: first.text = extra ++ 0x3B :: second.text) :
    extra = [] ∧ first = second ∨ ∃ middle, extra = Octets.ascii [';', 's', '='] ++ middle ∧
      first = .string (middle ++ 0x3B :: second.text) := by
  cases extra with
  | nil => exact .inl ⟨rfl, Identifier.text_injective (List.cons.inj same).2⟩
  | cons semicolon rest =>
      obtain ⟨rfl, inner⟩ := List.cons.inj same
      have member : 0x3B ∈ first.text := by
        rw [inner]
        exact List.mem_append_right _ List.mem_cons_self
      obtain ⟨text, rfl⟩ := Identifier.string_of_semicolon member
      -- The text of a string begins with two octets that are no semicolon, so what stands before
      -- the last semicolon has these two and a part of the string.
      have spelled : (0x73 : UInt8) :: 0x3D :: text = rest ++ 0x3B :: second.text := inner
      match rest with
      | [] => exact absurd (List.cons.inj spelled).1 (by decide)
      | [_] => exact absurd (List.cons.inj (List.cons.inj spelled).2).1 (by decide)
      | _ :: _ :: middle =>
          obtain ⟨rfl, equals⟩ := List.cons.inj spelled
          obtain ⟨rfl, held⟩ := List.cons.inj equals
          exact .inr ⟨middle, rfl, congrArg Identifier.string held⟩

theorem uri_keys {first second : Identifier} {uri other : Octets}
    (same : uri ++ 0x3B :: first.text = other ++ 0x3B :: second.text) :
    (⟨first, .uri uri⟩ : CanonicalId) = ⟨second, .uri other⟩ ∨
      Confused ⟨first, .uri uri⟩ ⟨second, .uri other⟩ := by
  rcases List.append_eq_append_iff.mp same with ⟨extra, rfl, rest⟩ | ⟨extra, rfl, rest⟩
  · rcases overhang rest with ⟨rfl, rfl⟩ | ⟨middle, rfl, rfl⟩
    · exact .inl (by rw [List.append_nil])
    · exact .inr (.inr ⟨uri, middle, by rw [List.append_assoc], rfl⟩)
  · rcases overhang rest with ⟨rfl, rfl⟩ | ⟨middle, rfl, rfl⟩
    · exact .inl (by rw [List.append_nil])
    · exact .inr (.inl ⟨other, middle, by rw [List.append_assoc], rfl⟩)

theorem index_keys {first second : Identifier} {index other : UInt16}
    (same : decimal index.toNat ++ 0x3B :: first.text =
      decimal other.toNat ++ 0x3B :: second.text) :
    (⟨first, .index index⟩ : CanonicalId) = ⟨second, .index other⟩ := by
  have digits (number : Nat) : 0x3B ∉ decimal number := fun member =>
    absurd rfl (digit_facts (decimal_digits member)).2.2.2
  have split := split_semicolon_append (digits index.toNat) first.text
  rw [same, split_semicolon_append (digits other.toNat)] at split
  obtain ⟨numbers, texts⟩ := Prod.mk.inj (Option.some.inj split)
  have values := congrArg digitsValue numbers
  rw [digits_value_decimal, digits_value_decimal] at values
  rw [UInt16.toNat_inj.mp values, Identifier.text_injective texts]

/-- Two identifiers are filed under one text only when they mean the same or one shadows the
other. -/
theorem key_eq_iff {first second : CanonicalId} :
    first.key = second.key ↔ first = second ∨ first.Confused second := by
  have third : 'u'.toUInt8 ≠ '='.toUInt8 := by decide
  constructor
  · intro same
    obtain ⟨identifier, uri | index⟩ := first <;> obtain ⟨other, uri' | index'⟩ := second
    · simp only [key, List.append_assoc, List.append_cancel_left_eq] at same
      exact uri_keys same
    · exact absurd same (by simp [key, Octets.ascii, third])
    · exact absurd same (by simp [key, Octets.ascii, third.symm])
    · simp only [key, List.append_assoc, List.append_cancel_left_eq] at same
      exact .inl (index_keys same)
  · rintro (rfl | shadows | shadows)
    · rfl
    · exact key_eq_of_shadows shadows
    · exact (key_eq_of_shadows shadows).symm

end CanonicalId

end OpcUa
