import OpcUa.Json.Document
import OpcUa.Proofs.Limits.Bounds
import OpcUa.Proofs.NodeId.Text
import OpcUa.Proofs.Text.Base64

/-!
The ceiling on texts in a JSON document, against the texts that values within the limits take. It is
above every string, every XML element and the Base64 form of every octet string. The text of a node
identifier has its namespace and its kind in front of such a text, for which the ceiling leaves no
room: it is refused when the identifier alone comes within a few octets of the ceiling.
-/

namespace OpcUa

open Text

/-- How long the text of an identifier is behind the letter of its kind and the equals sign. -/
def Identifier.textSize : Identifier → Nat
  | .numeric number => (decimal number.toNat).length
  | .string text => text.length
  | .guid _ => 36
  | .bytes value => (value.length + 2) / 3 * 4

/-- How long the namespace and the kind in front of an identifier are. -/
def NodeId.headSize (id : NodeId) : Nat :=
  (if id.namespaceIndex = 0 then 0 else (decimal id.namespaceIndex.toNat).length + 4) + 2

theorem Identifier.text_length (identifier : Identifier) :
    identifier.text.length = 2 + identifier.textSize := by
  cases identifier with
  | numeric number => rw [text, textSize, List.length_append]; rfl
  | string held => rw [text, textSize, List.length_append]; rfl
  | guid value => rw [text, textSize, List.length_append, Guid.text_length]; rfl
  | bytes value => rw [text, textSize, List.length_append, Base64.encode_length]; rfl

theorem NodeId.text_length (id : NodeId) :
    id.text.length = id.headSize + id.identifier.textSize := by
  rw [text, List.length_append, Identifier.text_length, headSize, ← Nat.add_assoc]
  split
  · rfl
  · simp only [Octets.ascii, List.map_cons, List.map_nil, List.cons_append, List.nil_append,
      List.length_cons, List.length_append, List.length_nil]

/-- An index has at most five digits. -/
theorem NodeId.head_size_le (id : NodeId) : id.headSize ≤ 11 := by
  have digits : (decimal id.namespaceIndex.toNat).length ≤ 5 := by
    rw [decimal, List.length_map, Nat.length_toDigits_le_iff (by decide) (by decide)]
    exact Nat.lt_trans id.namespaceIndex.toNat_lt (by decide)
  unfold headSize
  split <;> omega

namespace Limits

/-- Either length without a limit lifts the ceiling. -/
theorem check_text_unlimited {limits : Limits}
    (unlimited : limits.string = 0 ∨ limits.byteString = 0) (size : Nat) :
    limits.checkText size = .ok () := by
  have ceiling : limits.textCeiling = 0 := if_pos unlimited
  unfold checkText
  rw [ceiling]
  rfl

theorem text_ceiling_limited {limits : Limits} (text : limits.string ≠ 0)
    (octets : limits.byteString ≠ 0) :
    limits.textCeiling = max limits.string ((limits.byteString + 2) / 3 * 4) :=
  if_neg fun unlimited => unlimited.elim text octets

theorem check_text_limited {limits : Limits} (text : limits.string ≠ 0)
    (octets : limits.byteString ≠ 0) (size : Nat) : limits.checkText size =
      if size ≤ limits.textCeiling then .ok ()
      else .error (.limit (.documentText size limits.textCeiling)) := by
  have positive : limits.textCeiling ≠ 0 := by
    rw [text_ceiling_limited text octets]
    omega
  unfold checkText withinLimit
  simp only [positive, decide_false, Bool.false_or, decide_eq_true_eq]

theorem check_text_of_le {limits : Limits} {size : Nat}
    (below : size ≤ max limits.string ((limits.byteString + 2) / 3 * 4)) :
    limits.checkText size = .ok () := by
  by_cases unlimited : limits.string = 0 ∨ limits.byteString = 0
  · exact check_text_unlimited unlimited size
  · obtain ⟨text, octets⟩ := not_or.mp unlimited
    rw [check_text_limited text octets, text_ceiling_limited text octets, if_pos below]

/-- What a document may hold of the values within the limits: every text but that of a node
identifier whose head does not fit below the ceiling any more. -/
theorem document_text_admits_values (limits : Limits) :
    (limits.string = 0 ∨ limits.byteString = 0 → ∀ size, limits.checkText size = .ok ()) ∧
    (∀ text : Octets, text.length ≤ limits.string → limits.checkText text.length = .ok ()) ∧
    (∀ xml : Octets, xml.length ≤ limits.byteString → limits.checkText xml.length = .ok ()) ∧
    (∀ octets : Octets, octets.length ≤ limits.byteString →
      limits.checkText (Base64.encode octets).length = .ok ()) ∧
    (∀ id : NodeId, id.identifier.textSize + 11 ≤ limits.textCeiling →
      limits.checkText id.text.length = .ok ()) ∧
    (limits.string ≠ 0 → limits.byteString ≠ 0 → ∀ id : NodeId, limits.checkText id.text.length =
      if id.headSize + id.identifier.textSize ≤ limits.textCeiling then .ok ()
      else .error
        (.limit (.documentText (id.headSize + id.identifier.textSize) limits.textCeiling))) := by
  refine ⟨check_text_unlimited, ?_, ?_, ?_, ?_, ?_⟩
  · intro text within
    exact check_text_of_le (Nat.le_trans within (Nat.le_max_left _ _))
  · intro xml within
    exact check_text_of_le (by omega)
  · intro octets within
    rw [Base64.encode_length]
    exact check_text_of_le (by omega)
  · intro id room
    have head := id.head_size_le
    unfold checkText withinLimit
    rw [NodeId.text_length, if_pos]
    simp only [Bool.or_eq_true, decide_eq_true_eq]
    omega
  · intro text octets id
    rw [check_text_limited text octets, NodeId.text_length]

/-- Under limits of eight and six the ceiling is eight: what is within the limits passes, a node
identifier as long as the ceiling passes, and every identifier once a limit is lifted. -/
theorem document_text_admits_eight_octets :
    checkText { standard with string := 8, byteString := 6 }
      (Octets.ascii ['p', 'u', 'm', 'p', '-', '1', '0', '0']).length = .ok () ∧
    checkText { standard with string := 8, byteString := 6 }
      (Base64.encode [1, 2, 3, 4, 5, 6]).length = .ok () ∧
    checkText { standard with string := 8, byteString := 6 }
      (NodeId.mk 1 (.numeric 7)).text.length = .ok () ∧
    checkText { standard with string := 0, byteString := 6 }
      (NodeId.mk 1 (.string (List.replicate 99 0x78))).text.length = .ok () ∧
    checkText standard (NodeId.mk 65535 (.string (List.replicate 65535 0x78))).text.length =
      .ok () :=
  ⟨(document_text_admits_values _).2.1 _ (by decide),
    (document_text_admits_values _).2.2.2.1 _ (by decide),
    ((document_text_admits_values _).2.2.2.2.2 (by decide) (by decide) ⟨1, .numeric 7⟩).trans
      (if_pos (by decide)),
    (document_text_admits_values _).1 (Or.inl rfl) _,
    (document_text_admits_values _).2.2.2.2.1 _ (by
      rw [Identifier.textSize, List.length_replicate]
      decide)⟩

/-- A node identifier whose four octets of text are as long as a string may be is refused. -/
theorem document_text_refuses_node_id_within_limits :
    (NodeId.mk 1 (.string (Octets.ascii ['p', 'u', 'm', 'p']))).identifier.WithinLimits
      { standard with string := 4, byteString := 3 } ∧
    checkText { standard with string := 4, byteString := 3 }
      (NodeId.mk 1 (.string (Octets.ascii ['p', 'u', 'm', 'p']))).text.length =
        .error (.limit (.documentText 11 4)) := by
  constructor
  · exact Or.inr (Nat.le_refl 4)
  · decide

end Limits

end OpcUa
