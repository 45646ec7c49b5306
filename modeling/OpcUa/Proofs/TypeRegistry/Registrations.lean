import Mathlib
import OpcUa.Proofs.TypeRegistry.Keys

/-!
The registry as a map. After any row of registrations the schema under an identifier is the one that
was registered last for the same key, and there is one entry for each key. Where no identifier
shadows another, that makes it a map from what identifiers mean.
-/

namespace OpcUa

structure Registration where
  format : WireFormat
  id : ExpandedNodeId
  schema : Schema

/-- Whether a registration is for a format and a meaning; a null identifier is for none. -/
def Registration.isFor (entry : Registration) (format : WireFormat) (canonical : CanonicalId) :
    Bool :=
  !entry.id.isNull && entry.format = format && entry.id.canonical = canonical

namespace TypeRegistry

/-- The registry after a row of registrations. -/
def ofRegistrations (entries : List Registration) : TypeRegistry :=
  entries.foldl (fun registry entry => registry.add entry.format entry.id entry.schema) []

/-- The schema that was registered last for a format and a meaning. -/
def lastRegistered? (entries : List Registration) (format : WireFormat) (canonical : CanonicalId) :
    Option Schema :=
  (entries.filter fun entry => entry.isFor format canonical).getLast?.map Registration.schema

/-- What was registered: formats with meanings, each once. -/
def registered (entries : List Registration) : Finset (WireFormat × CanonicalId) :=
  ((entries.filter fun entry => !entry.id.isNull).map fun entry =>
    (entry.format, entry.id.canonical)).toFinset

variable {registry : TypeRegistry} {entries : List Registration} {entry : Registration}
  {format other : WireFormat} {id id' : ExpandedNodeId} {schema : Schema}

theorem of_registrations_snoc (entries : List Registration) (entry : Registration) :
    ofRegistrations (entries ++ [entry]) =
      (ofRegistrations entries).add entry.format entry.id entry.schema := by
  simp only [ofRegistrations, List.foldl_append, List.foldl_cons, List.foldl_nil]

theorem add_null (null : id.isNull = true) : registry.add format id schema = registry := if_pos null

theorem resolve_added (real : id.isNull = false) (format' : WireFormat) (id' : ExpandedNodeId) :
    (registry.add format id schema).resolve? format' id' =
      if (format, key id) = (format', key id') then some schema
      else registry.resolve? format' id' := by
  have added : registry.add format id schema = _ := if_neg (by simp [real])
  unfold resolve?
  rw [added]
  by_cases same : (format, key id) = (format', key id')
  · rw [if_pos same, List.find?_cons_of_pos (by simpa using same)]
    rfl
  · -- The entry that is dropped is not the one that is looked for.
    rw [if_neg same, List.find?_cons_of_neg (by simpa using same), List.find?_filter]
    congr 2
    funext entry
    simp only [decide_eq_true_eq, decide_eq_decide, and_iff_right_iff_imp]
    exact fun found replaced => same (replaced.symm.trans found)

/-- An entry is found for what a registration is for, as long as the two are not confused. -/
theorem resolve_registered (apart : ¬entry.id.canonical.Confused id.canonical)
    (before : registry.resolve? format id = lastRegistered? entries format id.canonical) :
    (registry.add entry.format entry.id entry.schema).resolve? format id =
      lastRegistered? (entries ++ [entry]) format id.canonical := by
  have keys : key entry.id = key id ↔ entry.id.canonical = id.canonical := by
    rw [← CanonicalId.key_canonical, ← CanonicalId.key_canonical, CanonicalId.key_eq_iff,
      or_iff_left apart]
  unfold lastRegistered? at before ⊢
  rw [List.filter_append]
  cases null : entry.id.isNull with
  | true =>
      have skipped : entry.isFor format id.canonical = false := by
        simp only [Registration.isFor, null, Bool.not_true, Bool.false_and]
      rw [add_null null, before, List.filter_singleton, skipped]
      simp
  | false =>
      have chosen : entry.isFor format id.canonical =
          decide ((entry.format, key entry.id) = (format, key id)) := by
        simp [Registration.isFor, null, keys]
      rw [resolve_added null, before, List.filter_singleton, chosen]
      by_cases same : (entry.format, key entry.id) = (format, key id)
      · simp [same]
      · simp [same]

theorem resolve_of_registrations (format : WireFormat) (id : ExpandedNodeId)
    (apart : ∀ entry ∈ entries, ¬entry.id.canonical.Confused id.canonical) :
    (ofRegistrations entries).resolve? format id =
      lastRegistered? entries format id.canonical := by
  induction entries using List.reverseRecOn with
  | nil => rfl
  | append_singleton entries entry induction =>
      rw [of_registrations_snoc]
      exact resolve_registered (apart entry (List.mem_append_right _ List.mem_cons_self))
        (induction fun earlier member => apart earlier (List.mem_append_left _ member))

/-! The number of entries. -/

theorem keys_added (real : id.isNull = false) :
    (registry.add format id schema).map Prod.fst =
      (format, key id) :: (registry.map Prod.fst).filter (· ≠ (format, key id)) := by
  have added : registry.add format id schema = _ := if_neg (by simp [real])
  rw [added, List.map_cons, List.filter_map]
  rfl

theorem registered_null (null : entry.id.isNull = true) :
    registered (entries ++ [entry]) = registered entries := by
  simp [registered, List.filter_append, null]

theorem registered_real (real : entry.id.isNull = false) :
    registered (entries ++ [entry]) =
      insert (entry.format, entry.id.canonical) (registered entries) := by
  ext pair
  simp [registered, List.filter_append, real]

/-- The key of a format with a meaning. -/
def keyOf (pair : WireFormat × CanonicalId) : WireFormat × Octets := (pair.1, pair.2.key)

/-- The keys of the entries are distinct, and they are those of what was registered. -/
theorem keys_of_registrations (entries : List Registration) :
    ((ofRegistrations entries).map Prod.fst).Nodup ∧
      ((ofRegistrations entries).map Prod.fst).toFinset = (registered entries).image keyOf := by
  induction entries using List.reverseRecOn with
  | nil => exact ⟨List.nodup_nil, rfl⟩
  | append_singleton entries entry induction =>
      obtain ⟨distinct, same⟩ := induction
      rw [of_registrations_snoc]
      cases null : entry.id.isNull with
      | true =>
          rw [add_null null, registered_null null]
          exact ⟨distinct, same⟩
      | false =>
          rw [keys_added null, registered_real null, Finset.image_insert, ← same]
          constructor
          · refine List.nodup_cons.mpr ⟨?_, distinct.filter _⟩
            simp
          · have filed : keyOf (entry.format, entry.id.canonical) =
                (entry.format, key entry.id) := by
              rw [keyOf, CanonicalId.key_canonical]
            rw [filed]
            ext pair
            by_cases replaced : pair = (entry.format, key entry.id) <;> simp [replaced]

theorem entry_of_registered {pair : WireFormat × CanonicalId} (member : pair ∈ registered entries) :
    ∃ entry ∈ entries, (entry.format, entry.id.canonical) = pair := by
  simp only [registered, List.mem_toFinset, List.mem_map, List.mem_filter] at member
  obtain ⟨entry, ⟨listed, _⟩, same⟩ := member
  exact ⟨entry, listed, same⟩

theorem size_of_registrations
    (apart : ∀ first ∈ entries, ∀ second ∈ entries,
      ¬first.id.canonical.Confused second.id.canonical) :
    (ofRegistrations entries).size = (registered entries).card := by
  obtain ⟨distinct, same⟩ := keys_of_registrations entries
  have injective : Set.InjOn keyOf (registered entries) := by
    intro pair member pair' member' keys
    obtain ⟨first, listed, rfl⟩ := entry_of_registered member
    obtain ⟨second, listed', rfl⟩ := entry_of_registered member'
    obtain ⟨formats, texts⟩ := Prod.mk.inj keys
    rcases CanonicalId.key_eq_iff.mp texts with canonical | confused
    · exact Prod.ext formats canonical
    · exact absurd confused (apart first listed second listed')
  calc
    (ofRegistrations entries).size = ((ofRegistrations entries).map Prod.fst).toFinset.card := by
      rw [List.toFinset_card_of_nodup distinct, List.length_map]
      rfl
    _ = (registered entries).card := by
      rw [same, Finset.card_image_of_injOn injective]

/-- The registry is a map from what identifiers mean as long as no identifier shadows another: an
entry is found where one was registered for the same meaning, the last one, and there is one for each
meaning. Two identifiers share an entry when they mean the same or one shadows the other. -/
theorem is_map_of_canonical_ids (entries : List Registration) :
    (∀ format id, (∀ entry ∈ entries, ¬entry.id.canonical.Confused id.canonical) →
      (ofRegistrations entries).resolve? format id =
        lastRegistered? entries format id.canonical) ∧
    ((∀ first ∈ entries, ∀ second ∈ entries,
        ¬first.id.canonical.Confused second.id.canonical) →
      (ofRegistrations entries).size = (registered entries).card) ∧
    ∀ first second : ExpandedNodeId, key first = key second ↔
      first.canonical = second.canonical ∨ first.canonical.Confused second.canonical := by
  refine ⟨fun format id apart => resolve_of_registrations format id apart,
    fun apart => size_of_registrations apart, fun first second => ?_⟩
  rw [← CanonicalId.key_canonical, ← CanonicalId.key_canonical, CanonicalId.key_eq_iff]

/-- The third registration replaces the first, whose identifier names the same namespace by URI. -/
theorem is_map_of_three_registrations :
    let schema (name : UInt8) := Schema.mk [name] .null .null .null []
    let indexed : ExpandedNodeId := ⟨⟨0, .numeric 8⟩, [], 0⟩
    let absolute : ExpandedNodeId := ⟨⟨3, .numeric 8⟩, coreNamespaceUri, 1⟩
    let named : ExpandedNodeId := ⟨⟨0, .string [0x61]⟩, [0x62], 0⟩
    let entries : List Registration :=
      [⟨.binary, absolute, schema 0x41⟩, ⟨.xml, named, schema 0x42⟩,
        ⟨.binary, indexed, schema 0x43⟩]
    (ofRegistrations entries).resolve? .binary absolute = some (schema 0x43) ∧
      (ofRegistrations entries).size = 2 := by
  intro schema indexed absolute named entries
  have plain : ∀ entry ∈ entries, ∀ text, entry.id.canonical.identifier = .string text →
      0x3B ∉ text := by
    intro entry member text same
    simp only [entries, List.mem_cons, List.not_mem_nil, or_false] at member
    rcases member with rfl | rfl | rfl
    · cases same
    · cases same
      decide
    · cases same
  have apart : ∀ first ∈ entries, ∀ second ∈ entries,
      ¬first.id.canonical.Confused second.id.canonical := by
    rintro first listed second listed' (shadows | shadows)
    · exact CanonicalId.not_shadows_of_plain (plain second listed') shadows
    · exact CanonicalId.not_shadows_of_plain (plain first listed) shadows
  have law := is_map_of_canonical_ids entries
  have queried : (⟨.binary, absolute, schema 0x41⟩ : Registration) ∈ entries := List.mem_cons_self
  have found := law.1 .binary absolute fun entry member => apart entry member _ queried
  have last : lastRegistered? entries .binary absolute.canonical = some (schema 0x43) := by
    simp only [entries, absolute, named, indexed, schema]
    cbv
  have meanings : (registered entries).card = 2 := by
    decide +kernel
  exact ⟨found.trans last, (law.2.1 apart).trans meanings⟩

/-- The second identifier finds the type that was registered for the first, in another namespace. -/
theorem finds_type_of_other_namespace :
    let schema := Schema.mk [0x50] .null .null .null []
    let id : ExpandedNodeId := ⟨⟨0, .string [0x62, 0x3B, 0x73, 0x3D, 0x63]⟩, [0x61], 0⟩
    let other : ExpandedNodeId := ⟨⟨0, .string [0x63]⟩, [0x61, 0x3B, 0x73, 0x3D, 0x62], 0⟩
    let registry := ofRegistrations [⟨.binary, id, schema⟩]
    id.canonical ≠ other.canonical ∧ registry.resolve? .binary other = some schema ∧
      registry.resolve? .binary other ≠
        lastRegistered? [⟨.binary, id, schema⟩] .binary other.canonical := by
  intro schema id other registry
  have found : registry.resolve? .binary other = some schema := rfl
  have missing : lastRegistered? [⟨.binary, id, schema⟩] .binary other.canonical = none := rfl
  refine ⟨by decide, found, ?_⟩
  rw [found, missing]
  exact Option.some_ne_none schema

end TypeRegistry

end OpcUa
