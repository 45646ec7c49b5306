import OpcUa.MessageContext

/-!
How the namespace table of a context grows: at its end, by URIs that are not empty and were not in
it. An index that was given out stays with its URI, and an identifier keeps its wire form.
-/

namespace OpcUa

namespace UriTable

theorem not_mem_of_index_from_none {start : Nat} {uri : Octets} {table : UriTable}
    (missing : indexFrom? start uri table = none) : uri ∉ table := by
  induction table generalizing start with
  | nil => simp
  | cons entry rest induction =>
      rw [indexFrom?] at missing
      split at missing
      · cases missing
      · rename_i differs
        simp only [List.mem_cons, not_or]
        exact ⟨fun same => differs same.symm, induction missing⟩

theorem index_from_append {start index : Nat} {uri : Octets} {table : UriTable}
    (found : indexFrom? start uri table = some index) (more : UriTable) :
    indexFrom? start uri (table ++ more) = some index := by
  induction table generalizing start with
  | nil => cases found
  | cons entry rest induction =>
      rw [indexFrom?] at found
      rw [List.cons_append, indexFrom?]
      split at found
      · rename_i same
        rw [if_pos same, found]
      · rename_i differs
        rw [if_neg differs, induction found]

theorem index_from_append_new {start : Nat} {uri : Octets} {table : UriTable}
    (missing : indexFrom? start uri table = none) (more : UriTable) :
    indexFrom? start uri (table ++ uri :: more) = some (start + table.length) := by
  induction table generalizing start with
  | nil => simp [indexFrom?]
  | cons entry rest induction =>
      rw [indexFrom?] at missing
      rw [List.cons_append, indexFrom?]
      split at missing
      · cases missing
      · rename_i differs
        rw [if_neg differs, induction missing, List.length_cons]
        congr 1
        omega

theorem uri_at_index_from {start index : Nat} {uri : Octets} {table : UriTable}
    (found : indexFrom? start uri table = some index) :
    ∃ place, index = start + place ∧ table.uriAt? place = some uri := by
  induction table generalizing start with
  | nil => cases found
  | cons entry rest induction =>
      rw [indexFrom?] at found
      split at found
      · rename_i same
        cases found
        exact ⟨0, rfl, congrArg some same⟩
      · obtain ⟨place, rfl, there⟩ := induction found
        exact ⟨place + 1, by omega, there⟩

/-- A URI is found at its place, or it is added at the end. -/
theorem find_or_add_cases (table : UriTable) {uri : Octets} (named : uri ≠ []) :
    (uri ∈ table ∧ (table.findOrAdd uri).1 < table.length ∧ (table.findOrAdd uri).2 = table) ∨
      (uri ∉ table ∧ table.findOrAdd uri = (table.length, table ++ [uri])) := by
  unfold findOrAdd indexOf?
  rw [if_neg named]
  cases found : indexFrom? 0 uri table with
  | some index =>
      obtain ⟨place, rfl, there⟩ := uri_at_index_from found
      rw [Nat.zero_add]
      exact .inl ⟨List.mem_of_getElem? there, (List.getElem?_eq_some_iff.mp there).1, rfl⟩
  | none => exact .inr ⟨not_mem_of_index_from_none found, rfl⟩

/-- Once found or added, a URI keeps its index while the table grows. -/
theorem find_or_add_settled {table later : UriTable} {uri : Octets} (named : uri ≠ [])
    (grown : (table.findOrAdd uri).2 <+: later) :
    later.findOrAdd uri = ((table.findOrAdd uri).1, later) := by
  unfold findOrAdd indexOf? at grown ⊢
  simp only [if_neg named] at grown ⊢
  cases found : indexFrom? 0 uri table with
  | some index =>
      rw [found] at grown
      obtain ⟨more, rfl⟩ := grown
      simp only [index_from_append found]
  | none =>
      rw [found] at grown
      obtain ⟨more, rfl⟩ := grown
      simp only [List.append_assoc, List.singleton_append, index_from_append_new found,
        Nat.zero_add]

end UriTable

namespace MessageContext

/-- The later context has further namespaces at the end of its table and is otherwise the same. -/
def GrowsTo (earlier later : MessageContext) : Prop :=
  ∃ added : UriTable, later = { earlier with namespaceUris := earlier.namespaceUris ++ added } ∧
    added.Nodup ∧ ∀ uri ∈ added, uri ≠ [] ∧ uri ∉ earlier.namespaceUris

variable {earlier middle later : MessageContext}

theorem grows_to_self (context : MessageContext) : context.GrowsTo context :=
  ⟨[], by simp, List.nodup_nil, by simp⟩

theorem GrowsTo.trans (first : earlier.GrowsTo middle) (second : middle.GrowsTo later) :
    earlier.GrowsTo later := by
  obtain ⟨added, rfl, distinct, fresh⟩ := first
  obtain ⟨added', rfl, distinct', fresh'⟩ := second
  refine ⟨added ++ added', by simp, ?_, ?_⟩
  · rw [List.nodup_append]
    refine ⟨distinct, distinct', ?_⟩
    rintro uri member _ member' rfl
    exact (fresh' uri member').2 (List.mem_append_right _ member)
  · intro uri member
    rcases List.mem_append.mp member with member | member
    · exact fresh uri member
    · exact ⟨(fresh' uri member).1,
        fun known => (fresh' uri member).2 (List.mem_append_left _ known)⟩

theorem GrowsTo.limits (grows : earlier.GrowsTo later) : later.limits = earlier.limits := by
  obtain ⟨added, rfl, _⟩ := grows
  rfl

theorem GrowsTo.registry (grows : earlier.GrowsTo later) : later.registry = earlier.registry := by
  obtain ⟨added, rfl, _⟩ := grows
  rfl

theorem GrowsTo.uris (grows : earlier.GrowsTo later) :
    earlier.namespaceUris <+: later.namespaceUris := by
  obtain ⟨added, rfl, _⟩ := grows
  exact List.prefix_append _ _

/-- A context that grows back to where it started has not changed on the way. -/
theorem GrowsTo.antisymm (out : earlier.GrowsTo later) (back : later.GrowsTo earlier) :
    later = earlier := by
  obtain ⟨added, rfl, _⟩ := out
  obtain ⟨added', same, _⟩ := back
  have lengths := congrArg (fun context => context.namespaceUris.length) same
  simp only [List.length_append] at lengths
  have none : added = [] := List.eq_nil_of_length_eq_zero (by omega)
  simp [none]

/-- The table of the context grows by a URI that is looked up. -/
theorem find_or_add_grows_to (context : MessageContext) {uri : Octets} (named : uri ≠ []) :
    context.GrowsTo
      { context with namespaceUris := (context.namespaceUris.findOrAdd uri).2 } := by
  rcases UriTable.find_or_add_cases context.namespaceUris named with
    ⟨_, _, known⟩ | ⟨fresh, added⟩
  · rw [known]
    exact grows_to_self context
  · refine ⟨[uri], by rw [added], by simp, ?_⟩
    intro other member
    rw [List.mem_singleton.mp member]
    exact ⟨named, fresh⟩

theorem to_node_id_grows (context : MessageContext) (id : ExpandedNodeId) :
    context.GrowsTo (context.toNodeId id).2 := by
  unfold toNodeId
  by_cases unnamed : id.namespaceUri = []
  · rw [if_pos unnamed]
    exact grows_to_self context
  · have grown := find_or_add_grows_to context unnamed
    rw [if_neg unnamed]
    simp only
    split <;> exact grown

/-- An identifier that has been given its wire form keeps it while the table grows. -/
theorem to_node_id_settled {context later : MessageContext} {id : ExpandedNodeId} {nodeId : NodeId}
    (resolved : (context.toNodeId id).1 = .ok nodeId)
    (grown : (context.toNodeId id).2.namespaceUris <+: later.namespaceUris) :
    later.toNodeId id = (.ok nodeId, later) := by
  unfold toNodeId at resolved grown ⊢
  by_cases unnamed : id.namespaceUri = []
  · rw [if_pos unnamed] at resolved ⊢
    rw [← resolved]
  · rw [if_neg unnamed] at resolved grown ⊢
    simp only at resolved grown ⊢
    by_cases full : 0xFFFF < (context.namespaceUris.findOrAdd id.namespaceUri).1
    · rw [if_pos full] at resolved
      cases resolved
    · rw [if_neg full] at resolved grown
      rw [UriTable.find_or_add_settled unnamed grown, if_neg full, ← resolved]

/-- Only the namespace is named in another way. -/
theorem to_node_id_identifier {context : MessageContext} {id : ExpandedNodeId} {nodeId : NodeId}
    (resolved : (context.toNodeId id).1 = .ok nodeId) :
    nodeId.identifier = id.nodeId.identifier := by
  unfold toNodeId at resolved
  split at resolved
  · cases resolved
    rfl
  · simp only at resolved
    split at resolved
    · cases resolved
    · cases resolved
      rfl

/-- Where the namespace is known, the search for a wire form changes nothing. -/
theorem to_node_id_known {context : MessageContext} {id : ExpandedNodeId}
    (known : id.namespaceUri = [] ∨ id.namespaceUri ∈ context.namespaceUris) :
    (context.toNodeId id).2 = context := by
  unfold toNodeId
  by_cases unnamed : id.namespaceUri = []
  · rw [if_pos unnamed]
  · rw [if_neg unnamed]
    rcases UriTable.find_or_add_cases context.namespaceUris unnamed with
      ⟨_, _, same⟩ | ⟨fresh, _⟩
    · simp only [same]
      split <;> rfl
    · exact absurd (known.resolve_left unnamed) fresh

/-- Of the context only the namespace table takes part. -/
theorem to_node_id_of_table {context other : MessageContext}
    (same : other.namespaceUris = context.namespaceUris) (id : ExpandedNodeId) :
    (other.toNodeId id).1 = (context.toNodeId id).1 ∧
      (other.toNodeId id).2.namespaceUris = (context.toNodeId id).2.namespaceUris := by
  unfold toNodeId
  by_cases unnamed : id.namespaceUri = []
  · rw [if_pos unnamed, if_pos unnamed]
    exact ⟨rfl, same⟩
  · rw [if_neg unnamed, if_neg unnamed, same]
    simp only
    split <;> exact ⟨rfl, rfl⟩

end MessageContext

end OpcUa
