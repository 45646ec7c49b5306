import Mathlib.Data.Finset.Card
import Mathlib.Data.Finset.SDiff
import OpcUa.Proofs.MessageContext.Growth
import OpcUa.Text.Number

/-!
How long the namespace table gets. The wire has 65536 indices, and an identifier is refused when the
index of its URI is none of these; but a URI that is new to the table has been added by then. So a
table that fits the wire goes on doing so for just as long as no identifier is refused.
-/

namespace OpcUa

namespace UriTable

/-- The URIs of identifiers that a table does not have, each once. -/
def newUris (table : UriTable) (ids : List ExpandedNodeId) : Finset Octets :=
  (ids.map ExpandedNodeId.namespaceUri).toFinset.erase [] \ table.toFinset

theorem new_uris_cons (table : UriTable) (id : ExpandedNodeId) (rest : List ExpandedNodeId) :
    (table.newUris (id :: rest)).card =
      if id.namespaceUri = [] ∨ id.namespaceUri ∈ table then (table.newUris rest).card
      else (newUris (table ++ [id.namespaceUri]) rest).card + 1 := by
  by_cases settled : id.namespaceUri = [] ∨ id.namespaceUri ∈ table
  · rw [if_pos settled]
    congr 1
    ext uri
    simp only [newUris, List.map_cons, List.toFinset_cons, Finset.mem_sdiff, Finset.mem_erase,
      Finset.mem_insert, List.mem_toFinset]
    grind
  · obtain ⟨named, fresh⟩ := not_or.mp settled
    have split : newUris table (id :: rest) =
        insert id.namespaceUri (newUris (table ++ [id.namespaceUri]) rest) := by
      ext uri
      simp only [newUris, List.map_cons, List.toFinset_cons, Finset.mem_sdiff, Finset.mem_erase,
        Finset.mem_insert, List.mem_toFinset, List.mem_append, List.mem_singleton]
      grind
    rw [if_neg settled, split, Finset.card_insert_of_notMem]
    simp [newUris]

theorem table_of_find_or_add (table : UriTable) {uri : Octets} (named : uri ≠ []) :
    (table.findOrAdd uri).2 = if uri ∈ table then table else table ++ [uri] := by
  rcases table.find_or_add_cases named with ⟨member, _, known⟩ | ⟨fresh, added⟩
  · rw [known, if_pos member]
  · rw [added, if_neg fresh]

/-- The core URI and then so many others. -/
def numbered (count : Nat) : UriTable :=
  coreNamespaceUri :: (List.range' 1 count).map fun number =>
    Octets.ascii ['u', 'r', 'n', ':', 'f', 'i', 'l', 'l', ':'] ++ Text.decimal number

theorem numbered_length (count : Nat) : (numbered count).length = count + 1 := by
  simp [numbered]

theorem not_mem_numbered (count : Nat) :
    Octets.ascii ['u', 'r', 'n', ':', 'n', 'e', 'w'] ∉ numbered count := by
  have core : Octets.ascii ['u', 'r', 'n', ':', 'n', 'e', 'w'] ≠ coreNamespaceUri := by
    decide +kernel
  have fifth : 'f'.toUInt8 ≠ 'n'.toUInt8 := by decide
  intro member
  rcases List.mem_cons.mp member with same | numbered
  · exact core same
  · obtain ⟨number, _, same⟩ := List.mem_map.mp numbered
    simp [Octets.ascii, fifth] at same

end UriTable

namespace MessageContext

variable {context : MessageContext}

/-- The wire forms of a row of identifiers, those that are refused included, one after the other. -/
def toNodeIds (context : MessageContext) :
    List ExpandedNodeId → List (Except Error NodeId) × MessageContext
  | [] => ([], context)
  | id :: rest =>
      let (result, context) := context.toNodeId id
      let (results, context) := context.toNodeIds rest
      (result :: results, context)

theorem to_node_ids_cons (context : MessageContext) (id : ExpandedNodeId)
    (rest : List ExpandedNodeId) :
    context.toNodeIds (id :: rest) =
      ((context.toNodeId id).1 :: ((context.toNodeId id).2.toNodeIds rest).1,
        ((context.toNodeId id).2.toNodeIds rest).2) := rfl

theorem table_after_wire_form (context : MessageContext) (id : ExpandedNodeId) :
    (context.toNodeId id).2.namespaceUris =
      if id.namespaceUri = [] ∨ id.namespaceUri ∈ context.namespaceUris then context.namespaceUris
      else context.namespaceUris ++ [id.namespaceUri] := by
  unfold toNodeId
  by_cases unnamed : id.namespaceUri = []
  · rw [if_pos unnamed, if_pos (.inl unnamed)]
  · have table := context.namespaceUris.table_of_find_or_add unnamed
    rw [if_neg unnamed]
    simp only [unnamed, false_or, ← table]
    split <;> rfl

theorem wire_form_refused_iff (context : MessageContext) (id : ExpandedNodeId) (error : Error) :
    (context.toNodeId id).1 = .error error ↔
      id.namespaceUri ≠ [] ∧ 0xFFFF < (context.namespaceUris.findOrAdd id.namespaceUri).1 ∧
        error = .encoding .namespaceTableFull := by
  unfold toNodeId
  by_cases unnamed : id.namespaceUri = []
  · simp [unnamed]
  · by_cases full : 0xFFFF < (context.namespaceUris.findOrAdd id.namespaceUri).1
    · simp [unnamed, full, eq_comm]
    · simp [unnamed, full]

/-- From a table that fits the wire, a wire form is refused exactly when the table outgrows it. -/
theorem refused_iff_outgrown (id : ExpandedNodeId)
    (fits : context.namespaceUris.length ≤ 65536) :
    (∃ error, (context.toNodeId id).1 = .error error) ↔
      65536 < (context.toNodeId id).2.namespaceUris.length := by
  simp only [wire_form_refused_iff, table_after_wire_form]
  by_cases unnamed : id.namespaceUri = []
  · simp [unnamed, fits]
  · rcases UriTable.find_or_add_cases context.namespaceUris unnamed with
      ⟨member, inside, _⟩ | ⟨fresh, added⟩
    · have reached : ¬0xFFFF < (context.namespaceUris.findOrAdd id.namespaceUri).1 := by omega
      simp [unnamed, member, reached, fits]
    · have last : 0xFFFF < context.namespaceUris.length ↔
          65536 < context.namespaceUris.length + 1 := by omega
      simpa [unnamed, fresh, added] using last

theorem refuses_new_uri (id : ExpandedNodeId) (full : 65536 ≤ context.namespaceUris.length)
    (named : id.namespaceUri ≠ []) (fresh : id.namespaceUri ∉ context.namespaceUris) :
    context.toNodeId id = (.error (.encoding .namespaceTableFull),
      { context with namespaceUris := context.namespaceUris ++ [id.namespaceUri] }) := by
  have added := (UriTable.find_or_add_cases context.namespaceUris named).resolve_left
    fun known => fresh known.1
  have beyond : 0xFFFF < context.namespaceUris.length := by omega
  simp only [toNodeId, if_neg named, added.2, if_pos beyond]

/-- A table gets one entry for each URI that is new to it, whether its identifiers are refused or
not. -/
theorem table_length_after (context : MessageContext) (ids : List ExpandedNodeId) :
    (context.toNodeIds ids).2.namespaceUris.length =
      context.namespaceUris.length + (context.namespaceUris.newUris ids).card := by
  induction ids generalizing context with
  | nil => simp [toNodeIds, UriTable.newUris]
  | cons id rest induction =>
      rw [to_node_ids_cons, induction, table_after_wire_form, UriTable.new_uris_cons]
      split
      · rfl
      · rw [List.length_append, List.length_singleton]
        omega

/-- A row of wire forms takes a table beyond the wire exactly when one of them is refused. -/
theorem fits_iff_none_refused (context : MessageContext) (ids : List ExpandedNodeId)
    (fits : context.namespaceUris.length ≤ 65536) :
    (context.toNodeIds ids).2.namespaceUris.length ≤ 65536 ↔
      ∀ result ∈ (context.toNodeIds ids).1, ∃ nodeId, result = .ok nodeId := by
  induction ids generalizing context with
  | nil => simp [toNodeIds, fits]
  | cons id rest induction =>
      have outgrown := refused_iff_outgrown id fits
      simp only [to_node_ids_cons, List.forall_mem_cons]
      cases first : (context.toNodeId id).1 with
      | ok nodeId =>
          have small : (context.toNodeId id).2.namespaceUris.length ≤ 65536 := by
            rw [first] at outgrown
            simp only [reduceCtorEq, exists_false, false_iff, not_lt] at outgrown
            exact outgrown
          simp [induction _ small]
      | error error =>
          -- What is beyond the wire stays there, since a table never gets shorter.
          have large := outgrown.mp ⟨error, first⟩
          have longer := table_length_after (context.toNodeId id).2 rest
          constructor
          · intro short
            omega
          · rintro ⟨⟨nodeId, accepted⟩, _⟩
            cases accepted

/-- A refused identifier leaves the table as it was only if its URI stands in it. A row of
identifiers makes a table longer by its new URIs, and takes one that fits the wire beyond it exactly
when one of them is refused. -/
theorem outgrows_wire_by_refused_uris (context : MessageContext) :
    (∀ id error, (context.toNodeId id).1 = .error error →
      error = .encoding .namespaceTableFull ∧
        (context.toNodeId id).2.namespaceUris =
          if id.namespaceUri ∈ context.namespaceUris then context.namespaceUris
          else context.namespaceUris ++ [id.namespaceUri]) ∧
    ∀ ids,
      (context.toNodeIds ids).2.namespaceUris.length =
        context.namespaceUris.length + (context.namespaceUris.newUris ids).card ∧
      (context.namespaceUris.length ≤ 65536 →
        ((context.toNodeIds ids).2.namespaceUris.length ≤ 65536 ↔
          ∀ result ∈ (context.toNodeIds ids).1, ∃ nodeId, result = .ok nodeId)) := by
  constructor
  · intro id error refused
    obtain ⟨named, _, full⟩ := (context.wire_form_refused_iff id error).mp refused
    refine ⟨full, ?_⟩
    rw [table_after_wire_form]
    simp only [named, false_or]
  · exact fun ids => ⟨context.table_length_after ids, context.fits_iff_none_refused ids⟩

/-- A URI that a table as long as the wire reaches does not have. -/
theorem outgrows_wire_by_one_uri :
    let context := { MessageContext.standard with namespaceUris := UriTable.numbered 65535 }
    let uri := Octets.ascii ['u', 'r', 'n', ':', 'n', 'e', 'w']
    let id : ExpandedNodeId := ⟨⟨0, .numeric 1⟩, uri, 0⟩
    context.namespaceUris.length ≤ 65536 ∧
      (context.toNodeId id).1 = .error (.encoding .namespaceTableFull) ∧
      (context.toNodeId id).2.namespaceUris = context.namespaceUris ++ [uri] ∧
      65536 < (context.toNodeIds [id]).2.namespaceUris.length := by
  intro context uri id
  have length : context.namespaceUris.length = 65536 := UriTable.numbered_length 65535
  have fresh : uri ∉ context.namespaceUris := UriTable.not_mem_numbered 65535
  have refused := congrArg Prod.fst (refuses_new_uri id length.ge (by decide) fresh)
  have law := outgrows_wire_by_refused_uris context
  obtain ⟨_, table⟩ := law.1 id _ refused
  rw [if_neg fresh] at table
  refine ⟨length.le, refused, table, ?_⟩
  rw [← not_le, (law.2 [id]).2 length.le, to_node_ids_cons]
  intro accepted
  obtain ⟨nodeId, same⟩ := accepted _ List.mem_cons_self
  rw [refused] at same
  cases same

/-- A full table gets an entry that no index on the wire leads to, for an identifier that is
refused. -/
theorem keeps_refused_uri :
    let context := { MessageContext.standard with namespaceUris := UriTable.numbered 65535 }
    let uri := Octets.ascii ['u', 'r', 'n', ':', 'n', 'e', 'w']
    let id : ExpandedNodeId := ⟨⟨0, .numeric 1⟩, uri, 0⟩
    context.namespaceUris.length = 65536 ∧
      (context.toNodeId id).1 = .error (.encoding .namespaceTableFull) ∧
      (context.toNodeId id).2.namespaceUris ≠ context.namespaceUris ∧
      (context.toNodeId id).2.namespaceUris.length = 65537 := by
  intro context uri id
  have length : context.namespaceUris.length = 65536 := UriTable.numbered_length 65535
  have fresh : uri ∉ context.namespaceUris := UriTable.not_mem_numbered 65535
  have refused := refuses_new_uri id length.ge (by decide) fresh
  have longer : (context.toNodeId id).2.namespaceUris.length = 65537 := by
    rw [refused, List.length_append, length, List.length_singleton]
  refine ⟨length, congrArg Prod.fst refused, ?_, longer⟩
  intro same
  rw [same, length] at longer
  cases longer

end MessageContext

end OpcUa
