import OpcUa.Proofs.MessageContext.Growth
import OpcUa.Proofs.TypeRegistry.Keys

/-!
What an identifier means in a context. Its namespace may be named by a URI, with or without an index
beside it, or by an index into the namespace table. The absolute form and the wire form of an
identifier are other spellings of what it means, so the registry finds the same type by both.
Absolute forms are not unique, though: they keep an index beside a URI, and namespace zero has one
with its URI and one without.
-/

namespace OpcUa

/-- The index that a URI overrides, zero where there is no URI. -/
def ExpandedNodeId.indexBesideUri (id : ExpandedNodeId) : UInt16 :=
  if id.namespaceUri = [] then 0 else id.nodeId.namespaceIndex

/-- Namespace zero is named by its index. -/
def ExpandedNodeId.IndexesCore (id : ExpandedNodeId) : Prop :=
  id.namespaceUri = [] ∧ id.nodeId.namespaceIndex = 0

instance (id : ExpandedNodeId) : Decidable id.IndexesCore :=
  inferInstanceAs (Decidable (id.namespaceUri = [] ∧ id.nodeId.namespaceIndex = 0))

/-- The identifiers have one index beside their URIs, and both or none of them name namespace zero by
its index. -/
structure ExpandedNodeId.SpelledAlike (first second : ExpandedNodeId) : Prop where
  beside : first.indexBesideUri = second.indexBesideUri
  core : first.IndexesCore ↔ second.IndexesCore

namespace ExpandedNodeId.SpelledAlike

variable {first second third : ExpandedNodeId}

theorem symm (alike : first.SpelledAlike second) : second.SpelledAlike first :=
  ⟨alike.beside.symm, alike.core.symm⟩

theorem trans (alike : first.SpelledAlike second) (alike' : second.SpelledAlike third) :
    first.SpelledAlike third :=
  ⟨alike.beside.trans alike'.beside, alike.core.trans alike'.core⟩

end ExpandedNodeId.SpelledAlike

namespace MessageContext

variable {context later : MessageContext} {id first second third : ExpandedNodeId}
  {nodeId : NodeId}

/-- The namespace an identifier lies in, by its URI where the context knows it. -/
def effectiveNamespace (context : MessageContext) (id : ExpandedNodeId) : EffectiveNamespace :=
  if context.namespaceUriOf id = [] then .index id.nodeId.namespaceIndex
  else .uri (context.namespaceUriOf id)

/-- What an identifier means in a context. -/
def meaning (context : MessageContext) (id : ExpandedNodeId) : CanonicalId :=
  ⟨id.nodeId.identifier, context.effectiveNamespace id⟩

/-- The identifiers mean the same on the same server. -/
structure SameNode (context : MessageContext) (first second : ExpandedNodeId) : Prop where
  server : first.serverIndex = second.serverIndex
  means : context.meaning first = context.meaning second

theorem SameNode.symm (same : context.SameNode first second) : context.SameNode second first :=
  ⟨same.server.symm, same.means.symm⟩

theorem SameNode.trans (same : context.SameNode first second)
    (same' : context.SameNode second third) : context.SameNode first third :=
  ⟨same.server.trans same'.server, same.means.trans same'.means⟩

theorem namespace_uri_of_named (named : id.namespaceUri ≠ []) :
    context.namespaceUriOf id = id.namespaceUri := if_pos named

theorem namespace_uri_of_unnamed (unnamed : id.namespaceUri = []) :
    context.namespaceUriOf id =
      (context.namespaceUris.uriAt? id.nodeId.namespaceIndex.toNat).getD [] :=
  if_neg (not_not.mpr unnamed)

/-- There is no index left whose URI the table could tell. -/
def IsAbsoluteForm (context : MessageContext) (id : ExpandedNodeId) : Prop :=
  id.namespaceUri ≠ [] ∨ id.nodeId.namespaceIndex = 0 ∨ context.namespaceUriOf id = []

/-- The absolute form is the identifier itself, or it has the URI of the index in its place. -/
theorem to_absolute_cases (context : MessageContext) (id : ExpandedNodeId) :
    (context.IsAbsoluteForm id ∧ context.toAbsolute id = id) ∨
      (id.namespaceUri = [] ∧ id.nodeId.namespaceIndex ≠ 0 ∧ context.namespaceUriOf id ≠ [] ∧
        context.toAbsolute id =
          ⟨⟨0, id.nodeId.identifier⟩, context.namespaceUriOf id, id.serverIndex⟩) := by
  unfold toAbsolute
  by_cases kept : id.namespaceUri ≠ [] ∨ id.nodeId.namespaceIndex = 0
  · rw [if_pos kept]
    exact .inl ⟨kept.imp_right .inl, rfl⟩
  · obtain ⟨named, indexed⟩ := not_or.mp kept
    have unnamed := not_not.mp named
    unfold IsAbsoluteForm
    rw [if_neg kept, namespace_uri_of_unnamed unnamed]
    rcases context.namespaceUris.uriAt? id.nodeId.namespaceIndex.toNat with _ | _ | ⟨octet, rest⟩
    · exact .inl ⟨.inr (.inr rfl), rfl⟩
    · exact .inl ⟨.inr (.inr rfl), rfl⟩
    · exact .inr ⟨unnamed, indexed, List.cons_ne_nil octet rest, rfl⟩

theorem absolute_form_to_absolute (context : MessageContext) (id : ExpandedNodeId) :
    context.IsAbsoluteForm (context.toAbsolute id) := by
  rcases context.to_absolute_cases id with ⟨absolute, same⟩ | ⟨_, _, known, replaced⟩
  · rw [same]
    exact absolute
  · rw [replaced]
    exact .inl known

theorem meaning_to_absolute (context : MessageContext) (id : ExpandedNodeId) :
    context.meaning (context.toAbsolute id) = context.meaning id := by
  rcases context.to_absolute_cases id with ⟨_, same⟩ | ⟨_, _, known, replaced⟩
  · rw [same]
  · rw [replaced]
    have uri : context.namespaceUriOf
        ⟨⟨0, id.nodeId.identifier⟩, context.namespaceUriOf id, id.serverIndex⟩ =
          context.namespaceUriOf id := namespace_uri_of_named known
    unfold meaning effectiveNamespace
    rw [uri, if_neg known, if_neg known]

theorem same_node_to_absolute (context : MessageContext) (id : ExpandedNodeId) :
    context.SameNode (context.toAbsolute id) id := by
  refine ⟨?_, context.meaning_to_absolute id⟩
  rcases context.to_absolute_cases id with ⟨_, same⟩ | ⟨_, _, _, replaced⟩
  · rw [same]
  · rw [replaced]

theorem spelled_alike_to_absolute (context : MessageContext) (id : ExpandedNodeId) :
    (context.toAbsolute id).SpelledAlike id := by
  rcases context.to_absolute_cases id with ⟨_, same⟩ | ⟨unnamed, indexed, known, replaced⟩
  · rw [same]
    exact ⟨rfl, Iff.rfl⟩
  · rw [replaced]
    exact
      { beside := by simp [ExpandedNodeId.indexBesideUri, known, unnamed]
        core := by simp [ExpandedNodeId.IndexesCore, known, indexed] }

theorem namespace_uri_of_absolute (absolute : context.IsAbsoluteForm id) (spelled : ¬id.IndexesCore) :
    context.namespaceUriOf id = id.namespaceUri := by
  by_cases unnamed : id.namespaceUri = []
  · rcases absolute with named | indexed | unknown
    · exact absurd unnamed named
    · exact absurd ⟨unnamed, indexed⟩ spelled
    · rw [unknown, unnamed]
  · exact namespace_uri_of_named unnamed

theorem namespace_uri_of_same
    (same : context.effectiveNamespace first = context.effectiveNamespace second) :
    context.namespaceUriOf first = context.namespaceUriOf second := by
  unfold effectiveNamespace at same
  split at same <;> split at same
  · simp only [*]
  · cases same
  · cases same
  · exact EffectiveNamespace.uri.inj same

theorem index_of_same (same : context.effectiveNamespace first = context.effectiveNamespace second)
    (unknown : context.namespaceUriOf first = []) :
    first.nodeId.namespaceIndex = second.nodeId.namespaceIndex := by
  have unknown' := (namespace_uri_of_same same).symm.trans unknown
  unfold effectiveNamespace at same
  rw [if_pos unknown, if_pos unknown'] at same
  exact EffectiveNamespace.index.inj same

/-- Absolute identifiers of one node that are spelled alike are one identifier. -/
theorem eq_of_same_node (absolute : context.IsAbsoluteForm first)
    (absolute' : context.IsAbsoluteForm second) (same : context.SameNode first second)
    (alike : first.SpelledAlike second) : first = second := by
  obtain ⟨server, means⟩ := same
  have identifier := congrArg CanonicalId.identifier means
  have effective := congrArg CanonicalId.effective means
  have places : first.namespaceUri = second.namespaceUri ∧
      first.nodeId.namespaceIndex = second.nodeId.namespaceIndex := by
    by_cases core : first.IndexesCore
    · obtain ⟨unnamed, indexed⟩ := core
      obtain ⟨unnamed', indexed'⟩ := alike.core.mp ⟨unnamed, indexed⟩
      exact ⟨unnamed.trans unnamed'.symm, indexed.trans indexed'.symm⟩
    · have uri := namespace_uri_of_absolute absolute core
      have uri' := namespace_uri_of_absolute absolute' fun core' => core (alike.core.mpr core')
      have uris : first.namespaceUri = second.namespaceUri := by
        rw [← uri, ← uri', namespace_uri_of_same effective]
      refine ⟨uris, ?_⟩
      by_cases unnamed : first.namespaceUri = []
      · exact index_of_same effective (uri.trans unnamed)
      · have beside := alike.beside
        unfold ExpandedNodeId.indexBesideUri at beside
        rwa [if_neg unnamed, if_neg (uris ▸ unnamed)] at beside
  obtain ⟨⟨index, _⟩, uri, _⟩ := first
  obtain ⟨⟨index', _⟩, uri', _⟩ := second
  obtain ⟨rfl, rfl⟩ := places
  obtain rfl := identifier
  obtain rfl := server
  rfl

/-- Two identifiers have one absolute form exactly when they are of the same node and spelled
alike. -/
theorem to_absolute_eq_iff :
    context.toAbsolute first = context.toAbsolute second ↔
      context.SameNode first second ∧ first.SpelledAlike second := by
  have node := context.same_node_to_absolute first
  have node' := context.same_node_to_absolute second
  have alike := context.spelled_alike_to_absolute first
  have alike' := context.spelled_alike_to_absolute second
  constructor
  · intro same
    rw [same] at node alike
    exact ⟨node.symm.trans node', alike.symm.trans alike'⟩
  · rintro ⟨same, spelled⟩
    exact eq_of_same_node (context.absolute_form_to_absolute first)
      (context.absolute_form_to_absolute second) (node.trans (same.trans node'.symm))
      (alike.trans (spelled.trans alike'.symm))

/-! The wire form. -/

end MessageContext

end OpcUa
