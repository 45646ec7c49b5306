import OpcUa.Proofs.Reader.Levels
import OpcUa.Proofs.Writer.Yields

/-!
Readers that take back what writers yield. A reader accepts octets for a result when it takes them
and no more wherever they stand in front, and leaves the open scopes alone. A writer carries a
result to a reader when whatever the writer yields is accepted for it. Each way of putting writers
together has its way of putting readers together.
-/

namespace OpcUa

/-- Wherever the octets stand in front, the reader takes them for the result and goes no further. -/
def Reader.Accepts {Result : Type} (reader : Reader Result) (context : MessageContext)
    (nesting : Nat) (octets : Octets) (result : Result) : Prop :=
  ∀ position rest namespaces,
    reader context ⟨position, octets ++ rest, nesting, namespaces⟩ =
      .done result ⟨position + octets.length, rest, nesting, namespaces⟩

/-- Whatever the writer yields in the context, the reader accepts there for the result. -/
def Writer.Carries {Result : Type} (writer : Writer) (context : MessageContext)
    (reader : Reader Result) (result : Result) : Prop :=
  ∀ nesting octets, writer.Yields context nesting octets →
    reader.Accepts context nesting octets result

variable {context : MessageContext} {nesting : Nat} {octets : Octets} {First Next : Type}

namespace Reader

theorem accepts_pure (result : First) :
    (pure result : Reader First).Accepts context nesting [] result :=
  fun _ _ _ => rfl

theorem Accepts.bind {first : Reader First} {next : First → Reader Next} {before after : Octets}
    {middle : First} {result : Next} (one : first.Accepts context nesting before middle)
    (other : (next middle).Accepts context nesting after result) :
    (first >>= next).Accepts context nesting (before ++ after) result := by
  intro position rest namespaces
  rw [bind_apply, List.append_assoc, one]
  simp only [other _ rest namespaces, List.length_append, Nat.add_assoc]

/-- What is computed from a result takes no octets. -/
theorem Accepts.last {first : Reader First} {next : First → Reader Next} {middle : First}
    {result : Next} (one : first.Accepts context nesting octets middle)
    (ends : next middle = pure result) :
    (first >>= next).Accepts context nesting octets result := by
  have nothing : (next middle).Accepts context nesting [] result := by
    rw [ends]
    exact accepts_pure result
  have both := one.bind nothing
  rw [List.append_nil] at both
  exact both

theorem accepts_take (content : Octets) :
    (take content.length).Accepts context nesting content content := by
  intro position rest namespaces
  rw [take_done]
  simp

theorem accepts_check {test : Limits → Except Error Unit} (passes : test context.limits = .ok ()) :
    (check test).Accepts context nesting [] () := by
  intro position rest namespaces
  rw [check_done]
  exact ⟨passes, rfl⟩

/-- What is required may be among the octets that are taken afterwards. -/
theorem require_among {count : Nat} {cause : DecodingError} (enough : count ≤ octets.length)
    (position : Nat) (rest : Octets) (namespaces : NamespaceStack) :
    require count cause context ⟨position, octets ++ rest, nesting, namespaces⟩ =
      .done () ⟨position, octets ++ rest, nesting, namespaces⟩ := by
  rw [require_done]
  exact ⟨by simp only [List.length_append]; omega, rfl⟩

theorem Accepts.after_require {count : Nat} {cause : DecodingError} {next : Unit → Reader Next}
    {result : Next} (other : (next ()).Accepts context nesting octets result)
    (enough : count ≤ octets.length) :
    (require count cause >>= next).Accepts context nesting octets result := by
  intro position rest namespaces
  rw [bind_apply, require_among enough]
  exact other position rest namespaces

theorem accepts_number (width value : Nat) :
    (number width).Accepts context nesting (Octets.littleEndian width value)
      (value % Octets.capacity width) := by
  intro position rest namespaces
  have width_eq := Octets.littleEndian_length width value
  rw [number_done]
  refine ⟨by simp only [List.length_append]; omega, ?_, ?_⟩
  · rw [List.take_left' width_eq, Octets.ofLittleEndian_littleEndian]
  · rw [List.drop_left' width_eq, width_eq]

theorem Accepts.after_lookup {id : ExpandedNodeId} {next : Option Schema → Reader Next}
    {found : Option Schema} {result : Next} (looked : context.schemaFor? .binary id = found)
    (other : (next found).Accepts context nesting octets result) :
    (schemaFor? id >>= next).Accepts context nesting octets result := by
  intro position rest namespaces
  rw [bind_apply]
  simp only [schemaFor?, looked]
  exact other position rest namespaces

theorem Accepts.nested {body : Reader First} {result : First}
    (inside : body.Accepts context (nesting + 1) octets result)
    (entered : context.limits.enter nesting = .ok (nesting + 1)) :
    (nested body).Accepts context nesting octets result := by
  intro position rest namespaces
  rw [nested_done]
  exact ⟨_, entered, inside position rest namespaces, rfl⟩

theorem Accepts.in_namespace_of {body : Reader First} {result : First} (typeId : ExpandedNodeId)
    (inside : body.Accepts context nesting octets result) :
    (inNamespaceOf typeId body).Accepts context nesting octets result := by
  intro position rest namespaces
  rw [in_namespace_of_done]
  exact ⟨_, inside position rest _, rfl, rfl⟩

theorem Accepts.within {body : Reader First} {result : First}
    (inside : body.Accepts context nesting octets result) :
    (within octets.length body).Accepts context nesting octets (.ok result) := by
  intro position rest namespaces
  rw [within_done]
  have exactly := inside position [] namespaces
  rw [List.append_nil] at exactly
  refine ⟨result, _, by simpa using exactly, rfl, by simp⟩

end Reader

namespace Writer

theorem carries_done {next : Reader First} {result : First} (ends : next = pure result) :
    done.Carries context next result := by
  intro nesting octets yields
  rw [yields_done.mp yields, ends]
  exact Reader.accepts_pure result

theorem Carries.append {first second : Writer} [Settling first] [Settling second]
    {reader : Reader First} {next : First → Reader Next} {middle : First} {result : Next}
    (one : first.Carries context reader middle)
    (other : second.Carries context (next middle) result) :
    (first ++ second).Carries context (reader >>= next) result := by
  intro nesting octets yields
  obtain ⟨before, after, rfl, first_yields, second_yields⟩ := (yields_append _ _).mp yields
  exact (one _ _ first_yields).bind (other _ _ second_yields)

theorem Carries.last {writer : Writer} {reader : Reader First} {next : First → Reader Next}
    {middle : First} {result : Next} (one : writer.Carries context reader middle)
    (ends : next middle = pure result) :
    writer.Carries context (reader >>= next) result :=
  fun nesting octets yields => (one nesting octets yields).last ends

theorem Carries.optional {present : Bool} {writer : Writer} {reader : Reader First}
    {absent result : First} (one : present = true → writer.Carries context reader result)
    (default : present = false → result = absent) :
    (optional present writer).Carries context (Reader.optional present absent reader) result := by
  cases present with
  | true => exact one rfl
  | false => exact carries_done (by rw [default rfl]; rfl)

/-- What the writer checks is known from then on. -/
theorem Carries.after_check {test : Limits → Except Error Unit} {writer : Writer}
    [Settling writer] {reader : Reader First} {result : First}
    (rest : test context.limits = .ok () → writer.Carries context reader result) :
    (check test ++ writer).Carries context reader result := by
  intro nesting octets yields
  obtain ⟨before, after, rfl, tested, further⟩ := (yields_append _ _).mp yields
  obtain ⟨rfl, passes⟩ := (yields_check test).mp tested
  exact rest passes _ _ further

/-- What the reader checks and is known takes no octets. -/
theorem Carries.checked {test : Limits → Except Error Unit} {writer : Writer}
    {next : Unit → Reader Next} {result : Next} (rest : writer.Carries context (next ()) result)
    (passes : test context.limits = .ok ()) :
    writer.Carries context (Reader.check test >>= next) result := by
  intro nesting octets yields
  exact (Reader.accepts_check passes).bind (rest _ _ yields)

theorem Carries.nested {body : Writer} [Settling body] {reader : Reader First} {result : First}
    (inside : body.Carries context reader result) :
    (nested body).Carries context (Reader.nested reader) result := by
  intro nesting octets yields
  obtain ⟨entered, deeper⟩ := (yields_nested body).mp yields
  exact (inside _ _ deeper).nested entered

theorem Carries.in_namespace_of {body : Writer} [Settling body] {reader : Reader First}
    {result : First} (typeId : ExpandedNodeId) (inside : body.Carries context reader result) :
    (inNamespaceOf typeId body).Carries context (Reader.inNamespaceOf typeId reader) result := by
  intro nesting octets yields
  exact (inside _ _ ((yields_in_namespace_of typeId body).mp yields)).in_namespace_of typeId

theorem carries_number (width value : Nat) :
    (number width value).Carries context (Reader.number width) (value % Octets.capacity width) := by
  intro nesting octets yields
  rw [(yields_emit _).mp yields]
  exact Reader.accepts_number width value

theorem carries_take (content : Octets) :
    (emit content).Carries context (Reader.take content.length) content := by
  intro nesting octets yields
  rw [(yields_emit _).mp yields]
  exact Reader.accepts_take content

theorem octet_eq_number (value : UInt8) : octet value = number 1 value.toNat := by
  simp [octet, number, Octets.littleEndian]

theorem carries_octet (value : UInt8) : (octet value).Carries context Reader.octet value := by
  rw [octet_eq_number]
  exact (carries_number 1 value.toNat).last (by simp [Octets.capacity])

theorem carries_uint16 (value : UInt16) :
    (number 2 value.toNat).Carries context Reader.uint16 value :=
  (carries_number 2 value.toNat).last (by simp [Octets.capacity])

theorem carries_uint32 (value : UInt32) :
    (number 4 value.toNat).Carries context Reader.uint32 value :=
  (carries_number 4 value.toNat).last (by simp [Octets.capacity])

theorem carries_uint64 (value : UInt64) :
    (number 8 value.toNat).Carries context Reader.uint64 value :=
  (carries_number 8 value.toNat).last (by simp [Octets.capacity])

theorem carries_int32 (value : Int32) : (int32 value).Carries context Reader.int32 value :=
  (carries_uint32 value.toUInt32).last (by simp)

theorem carries_no_length : noLength.Carries context Reader.lengthField none :=
  (carries_int32 (-1)).last rfl

/-- A length that fits its field is the same number with and without a sign. -/
theorem signed_length {length : Nat} (fits : length ≤ greatestLength) :
    ¬Int32.ofNat length < 0 ∧ (Int32.ofNat length).toInt = length ∧
      (Int32.ofNat length).toUInt32.toNat = length := by
  unfold greatestLength at fits
  have small : length < 2 ^ 31 := by omega
  have signed : (Int32.ofNat length).toInt = length := Int32.toInt_ofNat_of_lt small
  have positive : ¬Int32.ofNat length < 0 := by
    rw [Int32.lt_iff_toInt_lt, signed]
    simp
  refine ⟨positive, signed, ?_⟩
  rw [Int32.toNat_toUInt32_of_le (Int32.not_lt.mp positive)]
  exact Int32.toNatClampNeg_ofNat_of_lt small

theorem carries_length_field (length : Nat) :
    (lengthField length).Carries context Reader.lengthField (some length) := by
  intro nesting octets yields
  obtain ⟨fits, rfl⟩ := (yields_length_field length).mp yields
  obtain ⟨counted, signed, unsigned⟩ := signed_length fits
  have carried : (int32 (Int32.ofNat length)).Carries context Reader.lengthField (some length) :=
    (carries_int32 _).last (by rw [if_neg counted, signed]; rfl)
  apply carried
  unfold int32 number
  rw [yields_emit, unsigned]

end Writer

end OpcUa
