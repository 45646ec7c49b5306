import OpcUa.Proofs.RoundTrip.Again

/-!
What has been read can be written in no more octets than were read. The reader accepts longer forms
of node identifiers, parts that are announced and hold their default, and dimensions of plain
arrays; the writer leaves all of these out, and every check that it makes the reader has made.
-/

namespace OpcUa

/-- Between the two states at least as many octets were taken as the writer yields there. -/
structure Reader.Covers (context : MessageContext) (state left : Reader.State) (writer : Writer) :
    Prop where
  nesting : left.nesting = state.nesting
  position : left.position + left.input.length = state.position + state.input.length
  octets : ∃ octets, writer.Yields context state.nesting octets ∧
    octets.length + left.input.length ≤ state.input.length

/-- Whatever the reader returns has the property, and the octets that were taken cover what the
writer yields for it. -/
def Reader.Recovers {Result : Type} (reader : Reader Result) (context : MessageContext)
    (writer : Result → Writer) (property : Result → Prop) : Prop :=
  ∀ state result left, reader context state = .done result left →
    property result ∧ Reader.Covers context state left (writer result)

namespace Reader

variable {context : MessageContext} {state middle left : State} {First Next : Type}

theorem covers_done : Covers context state state Writer.done :=
  ⟨rfl, rfl, [], Writer.yields_done.mpr rfl, by simp⟩

theorem Covers.append {first second : Writer} [Writer.Settling first] [Writer.Settling second]
    (one : Covers context state middle first) (other : Covers context middle left second) :
    Covers context state left (first ++ second) := by
  obtain ⟨before, first_yields, first_size⟩ := one.octets
  obtain ⟨after, second_yields, second_size⟩ := other.octets
  rw [one.nesting] at second_yields
  refine ⟨other.nesting.trans one.nesting, other.position.trans one.position, before ++ after,
    (Writer.yields_append _ _).mpr ⟨before, after, rfl, first_yields, second_yields⟩, ?_⟩
  rw [List.length_append]
  omega

/-- What is left out is covered by whatever was taken. -/
theorem Covers.omitted {writer : Writer} (one : Covers context state left writer) :
    Covers context state left Writer.done := by
  obtain ⟨octets, _, size⟩ := one.octets
  refine ⟨one.nesting, one.position, [], Writer.yields_done.mpr rfl, ?_⟩
  rw [List.length_nil]
  omega

theorem Covers.then_omitted {first second : Writer} (one : Covers context state middle first)
    (other : Covers context middle left second) : Covers context state left first := by
  obtain ⟨before, yields, first_size⟩ := one.octets
  obtain ⟨_, _, second_size⟩ := other.octets
  exact ⟨other.nesting.trans one.nesting, other.position.trans one.position, before, yields,
    by omega⟩

theorem Covers.checked {test : Limits → Except Error Unit} {writer : Writer}
    [Writer.Settling writer] (rest : Covers context state left writer)
    (passes : test context.limits = .ok ()) :
    Covers context state left (Writer.check test ++ writer) := by
  obtain ⟨octets, yields, size⟩ := rest.octets
  exact ⟨rest.nesting, rest.position, octets, (Writer.yields_append _ _).mpr
    ⟨[], octets, rfl, (Writer.yields_check _).mpr ⟨rfl, passes⟩, yields⟩, size⟩

theorem covers_of_take {count : Nat} {taken : Octets}
    (read : take count context state = .done taken left) (octets : Octets)
    (short : octets.length ≤ count) : Covers context state left (Writer.emit octets) := by
  obtain ⟨enough, _, rfl⟩ := take_done.mp read
  refine ⟨rfl, by simp only [List.length_drop]; omega, octets, (Writer.yields_emit _).mpr rfl, ?_⟩
  simp only [List.length_drop]
  omega

theorem covers_of_number {width number : Nat}
    (read : Reader.number width context state = .done number left) {less : Nat} (value : Nat)
    (short : less ≤ width) : Covers context state left (Writer.number less value) := by
  obtain ⟨taken, _, took, ends⟩ := then_done.mp read
  cases ends
  exact covers_of_take took _ (by rw [Octets.littleEndian_length]; exact short)

theorem Covers.same_width {width one : Nat} (covers : Covers context state left
    (Writer.number width one))
    (other : Nat) : Covers context state left (Writer.number width other) := by
  obtain ⟨octets, yields, size⟩ := covers.octets
  rw [(Writer.yields_emit _).mp yields, Octets.littleEndian_length] at size
  exact ⟨covers.nesting, covers.position, _, (Writer.yields_emit _).mpr rfl,
    by rw [Octets.littleEndian_length]; exact size⟩

/-- Opened levels close again, so what is read inside covers a nested writer. -/
theorem Covers.nested {body : Writer} [Writer.Settling body] {inner : State}
    (entered : context.limits.enter state.nesting = .ok (state.nesting + 1))
    (inside : Covers context { state with nesting := state.nesting + 1 } inner body) :
    Covers context state { inner with nesting := inner.nesting - 1 } (Writer.nested body) := by
  obtain ⟨octets, yields, size⟩ := inside.octets
  refine ⟨?_, inside.position, octets, (Writer.yields_nested _).mpr ⟨entered, yields⟩, size⟩
  have level := inside.nesting
  simp only at level ⊢
  omega

/-- The octet in front of a level may be read before the level is opened. -/
theorem Covers.octet_nested {mask other : UInt8} {body : Writer} [Writer.Settling body]
    {inner : State} (front : Covers context state middle (Writer.octet other))
    (entered : context.limits.enter middle.nesting = .ok (middle.nesting + 1))
    (inside : Covers context { middle with nesting := middle.nesting + 1 } inner body) :
    Covers context state { inner with nesting := inner.nesting - 1 }
      (Writer.nested (Writer.octet mask ++ body)) := by
  have one : Covers context { state with nesting := state.nesting + 1 }
      { middle with nesting := middle.nesting + 1 } (Writer.octet mask) := by
    obtain ⟨octets, yields, size⟩ := front.octets
    rw [(Writer.yields_emit _).mp yields] at size
    exact ⟨congrArg Nat.succ front.nesting, front.position, [mask],
      (Writer.yields_emit _).mpr rfl, size⟩
  rw [front.nesting] at entered
  exact (one.append inside).nested entered

section

variable {reader : Reader First} {writer : First → Writer} {property : First → Prop}

/-- An announced part that holds its default is not written. -/
theorem Recovers.optional {present : Bool} {absent : First}
    (inside : reader.Recovers context writer property) (written : First → Bool)
    (default : written absent = false) (absent_holds : property absent) :
    (optional present absent reader).Recovers context
      (fun result => Writer.optional (written result) (writer result)) property := by
  intro state result left done
  change property result ∧
    Covers context state left (Writer.optional (written result) (writer result))
  cases present with
  | false =>
      cases done
      rw [default]
      exact ⟨absent_holds, covers_done⟩
  | true =>
      obtain ⟨holds, covers⟩ := inside _ _ _ done
      refine ⟨holds, ?_⟩
      cases written result with
      | true => exact covers
      | false => exact covers.omitted

theorem Recovers.map {next : First → Reader Next}
    (inside : reader.Recovers context writer property) (image : First → Next)
    (ends : ∀ result, next result = pure (image result)) {writer' : Next → Writer}
    (same : ∀ result, writer' (image result) = writer result)
    {property' : Next → Prop} (gives : ∀ result, property result → property' (image result)) :
    (reader >>= next).Recovers context writer' property' := by
  intro state result left done
  obtain ⟨middle, between, read, done⟩ := then_done.mp done
  rw [ends] at done
  cases done
  obtain ⟨holds, covers⟩ := inside _ _ _ read
  rw [same]
  exact ⟨gives _ holds, covers⟩

end

/-! Numbers and lengths. -/

theorem recovers_of_number {width less : Nat} {next : Nat → Reader First} {image : Nat → First}
    (ends : ∀ number, next number = pure (image number)) (value : First → Nat)
    (short : less ≤ width) : (number width >>= next).Recovers context
      (fun result => Writer.number less (value result)) (fun _ => True) := by
  intro state result left done
  obtain ⟨number, between, read, done⟩ := then_done.mp done
  rw [ends] at done
  cases done
  exact ⟨trivial, covers_of_number read _ short⟩

/-- A number is read from fields that may be wider than the ones it is written to. -/
theorem covers_of_uint16 {less : Nat} {number : UInt16} (short : less ≤ 2)
    (read : uint16 context state = .done number left) (value : Nat) :
    Covers context state left (Writer.number less value) :=
  (recovers_of_number (fun _ => rfl) (fun _ => value) short _ _ _ read).2

theorem covers_of_uint32 {less : Nat} {number : UInt32} (short : less ≤ 4)
    (read : uint32 context state = .done number left) (value : Nat) :
    Covers context state left (Writer.number less value) :=
  (recovers_of_number (fun _ => rfl) (fun _ => value) short _ _ _ read).2

theorem recovers_octet (writer : UInt8 → UInt8) :
    octet.Recovers context (fun result => Writer.octet (writer result)) (fun _ => True) := by
  simp only [Writer.octet_eq_number]
  exact recovers_of_number (fun _ => rfl) (fun result => (writer result).toNat) (Nat.le_refl _)

theorem recovers_uint16 :
    uint16.Recovers context (fun result => Writer.number 2 result.toNat) (fun _ => True) :=
  recovers_of_number (fun _ => rfl) UInt16.toNat (Nat.le_refl _)

theorem recovers_uint32 :
    uint32.Recovers context (fun result => Writer.number 4 result.toNat) (fun _ => True) :=
  recovers_of_number (fun _ => rfl) UInt32.toNat (Nat.le_refl _)

theorem recovers_uint64 :
    uint64.Recovers context (fun result => Writer.number 8 result.toNat) (fun _ => True) :=
  recovers_of_number (fun _ => rfl) UInt64.toNat (Nat.le_refl _)

theorem recovers_int32 : int32.Recovers context Writer.int32 (fun _ => True) :=
  recovers_uint32.map UInt32.toInt32 (fun _ => rfl) (fun result => by simp [Writer.int32])
    fun _ _ => trivial

/-- A length that is read is in the range of lengths that are written. -/
theorem length_field_done {length : Option Nat}
    (read : lengthField context state = .done length left) :
    (∀ value, length = some value → value ≤ Writer.greatestLength) ∧
      ∀ value, Covers context state left (Writer.number 4 value) := by
  obtain ⟨signed, between, taken, done⟩ := then_done.mp read
  cases done
  constructor
  · intro value counted
    have bound := Int32.toInt_lt signed
    by_cases negative : signed < 0
    · rw [if_pos negative] at counted
      cases counted
    · rw [if_neg negative] at counted
      cases counted
      unfold Writer.greatestLength
      omega
  · intro value
    exact (recovers_int32 _ _ _ taken).2.same_width value

theorem recovers_length_prefixed (kind : LengthKind) :
    (lengthPrefixed kind).Recovers context (Writer.lengthPrefixed kind) (fun _ => True) := by
  intro state result left done
  refine ⟨trivial, ?_⟩
  unfold Writer.lengthPrefixed
  obtain ⟨length, between, read, done⟩ := then_done.mp done
  obtain ⟨ranged, covers⟩ := length_field_done read
  cases length with
  | none =>
      cases done
      exact covers _
  | some length =>
      obtain ⟨_, after, checked, taken⟩ := then_done.mp done
      obtain ⟨passes, rfl⟩ := check_done.mp checked
      have content := covers_of_take taken result
      obtain ⟨enough, rfl, _⟩ := take_done.mp taken
      have size : (after.input.take length).length = length := List.length_take_of_le enough
      rw [size] at content ⊢
      split
      · exact (covers _).then_omitted (content (Nat.le_refl _))
      · rw [Writer.append_assoc]
        unfold Writer.lengthField
        rw [if_neg (Nat.not_lt.mpr (ranged length rfl))]
        exact ((covers length).append (content (Nat.le_refl _))).checked passes

theorem recovers_checked_text (kind : LengthKind) (cause : DecodingError) :
    (checkedText kind cause).Recovers context (Writer.lengthPrefixed kind)
      (fun result => Text.isValidUtf8 result) := by
  intro state result left done
  obtain ⟨content, between, read, done⟩ := then_done.mp done
  obtain ⟨_, covers⟩ := recovers_length_prefixed kind _ _ _ read
  by_cases valid : Text.isValidUtf8 content
  · rw [if_pos valid] at done
    cases done
    exact ⟨valid, covers⟩
  · rw [if_neg valid] at done
    cases done

end Reader

end OpcUa
