import OpcUa.Proofs.NodeId.Text

/-!
Reading the text of node identifiers. The parts of a text are told apart by how they begin: no
identifier begins like an index, a URI or a server, and neither index nor server begins like a URI.
Escapes keep semicolons out of a URI, so a part ends at the first one. Whatever is printed is read
back, and the only failure is that the text, or the end of it that is shown, is no identifier.
-/

namespace OpcUa

open Text

theorem drop_literal_append (literal rest : Octets) :
    dropLiteral? literal (literal ++ rest) = some rest := by
  induction literal with
  | nil => rfl
  | cons octet literal induction => simp only [List.cons_append, dropLiteral?, if_true, induction]

theorem drop_literal_suffix {literal text rest : Octets}
    (dropped : dropLiteral? literal text = some rest) : rest <:+ text := by
  induction literal generalizing text with
  | nil =>
      cases dropped
      exact List.suffix_refl _
  | cons expected literal induction =>
      cases text with
      | nil => cases dropped
      | cons octet text =>
          simp only [dropLiteral?] at dropped
          split at dropped
          · exact (induction dropped).trans (List.suffix_cons _ _)
          · cases dropped

theorem split_semicolon_suffix {text part rest : Octets}
    (split : splitSemicolon? text = some (part, rest)) : rest <:+ text := by
  induction text generalizing part with
  | nil => cases split
  | cons octet text induction =>
      simp only [splitSemicolon?] at split
      split at split
      · cases split
        exact List.suffix_cons _ _
      · obtain ⟨⟨before, after⟩, further, same⟩ := Option.map_eq_some_iff.mp split
        cases same
        exact (induction further).trans (List.suffix_cons _ _)

theorem error_of_map {First Next : Type} {result : Except Error First} {change : First → Next}
    {error : Error} (failed : result.map change = .error error) : result = .error error := by
  cases result with
  | ok found => cases failed
  | error cause =>
      cases failed
      rfl

namespace Identifier

/-- An equals sign in the second place sets an identifier apart from every other part. -/
theorem drop_literal_text {first second : UInt8} (other : second ≠ 0x3D) (literal : Octets)
    (identifier : Identifier) :
    dropLiteral? (first :: second :: literal) identifier.text = none := by
  have shape : ∃ letter value, identifier.text = letter :: 0x3D :: value := by
    cases identifier <;> exact ⟨_, _, rfl⟩
  obtain ⟨letter, value, same⟩ := shape
  simp only [same, dropLiteral?, if_neg (Ne.symm other), ite_self]

theorem parse_error {text : Octets} {error : Error} (failed : parse text = .error error) :
    error = .invalidNodeId text := by
  unfold parse at failed
  split at failed
  · split at failed
    · cases failed
    · cases failed
      rfl
  · cases failed
    rfl

end Identifier

namespace NodeId

theorem parse_text (id : NodeId) : parse id.text = .ok id := by
  obtain ⟨index, identifier⟩ := id
  unfold parse text
  by_cases zero : index = 0
  · subst zero
    have plain : dropLiteral? (Octets.ascii ['n', 's', '=']) identifier.text = none :=
      identifier.drop_literal_text (by decide) _
    simp only [if_true, List.nil_append, plain, identifier.parse_text]
    rfl
  · have dropped := drop_literal_append (Octets.ascii ['n', 's', '='])
      (decimal index.toNat ++ 0x3B :: identifier.text)
    simp only [if_neg zero, List.append_assoc, List.cons_append, List.nil_append, dropped,
      split_semicolon_append (decimal_no_semicolon _), parse_uint16_decimal, identifier.parse_text]
    rfl

/-- Neither a URI nor a server is taken for an index. -/
theorem drop_literal_text {literal : Octets}
    (other : literal = Octets.ascii ['n', 's', 'u', '='] ∨
      literal = Octets.ascii ['s', 'v', 'r', '='])
    (id : NodeId) : dropLiteral? literal id.text = none := by
  unfold text
  by_cases zero : id.namespaceIndex = 0
  · rw [if_pos zero, List.nil_append]
    rcases other with rfl | rfl <;> exact id.identifier.drop_literal_text (by decide) _
  · rw [if_neg zero]
    rcases other with rfl | rfl <;> rfl

/-- The whole text is shown for a bad index, and what follows the index for a bad identifier. -/
theorem parse_error {text : Octets} {error : Error} (failed : parse text = .error error) :
    ∃ shown, shown <:+ text ∧ error = .invalidNodeId shown := by
  unfold parse at failed
  split at failed
  · exact ⟨text, List.suffix_refl _, Identifier.parse_error (error_of_map failed)⟩
  · rename_i rest dropped
    split at failed
    · cases failed
      exact ⟨text, List.suffix_refl _, rfl⟩
    · rename_i part tail split_off
      split at failed
      · cases failed
        exact ⟨text, List.suffix_refl _, rfl⟩
      · exact ⟨tail, (split_semicolon_suffix split_off).trans (drop_literal_suffix dropped),
          Identifier.parse_error (error_of_map failed)⟩

end NodeId

/-! Escapes. -/

theorem unescape_plain {octet : UInt8} (other : octet ≠ 0x25) (rest : Octets) :
    unescapeUri (octet :: rest) = octet :: unescapeUri rest := by
  rw [unescapeUri]
  intro high low further same
  exact absurd same other

theorem unescape_percent (rest : Octets) :
    unescapeUri (Octets.ascii ['%', '2', '5'] ++ rest) = 0x25 :: unescapeUri rest := rfl

theorem unescape_semicolon (rest : Octets) :
    unescapeUri (Octets.ascii ['%', '3', 'B'] ++ rest) = 0x3B :: unescapeUri rest := rfl

theorem unescape_escape (uri : Octets) : unescapeUri (escapeUri uri) = uri := by
  induction uri with
  | nil => rfl
  | cons octet rest induction =>
      unfold escapeUri at induction ⊢
      rw [List.flatMap_cons]
      by_cases percent : octet = 0x25
      · rw [if_pos percent, unescape_percent, induction, percent]
      by_cases semicolon : octet = 0x3B
      · rw [if_neg percent, if_pos semicolon, unescape_semicolon, induction, semicolon]
      · rw [if_neg percent, if_neg semicolon, List.cons_append, List.nil_append,
          unescape_plain percent, induction]

theorem escape_no_semicolon (uri : Octets) : 0x3B ∉ escapeUri uri := by
  intro member
  obtain ⟨octet, _, escaped⟩ := List.mem_flatMap.mp member
  split at escaped
  · exact absurd escaped (by decide)
  split at escaped
  · exact absurd escaped (by decide)
  · rename_i semicolon
    exact semicolon (List.mem_singleton.mp escaped).symm

theorem escape_ne_nil {uri : Octets} (named : uri ≠ []) : escapeUri uri ≠ [] := by
  intro empty
  have back := unescape_escape uri
  rw [empty] at back
  exact named back.symm

namespace ExpandedNodeId

/-- The text without the server. -/
def textOnServer (id : ExpandedNodeId) : Octets :=
  if id.namespaceUri = [] then id.nodeId.text
  else Octets.ascii ['n', 's', 'u', '='] ++ escapeUri id.namespaceUri ++ 0x3B ::
    id.nodeId.identifier.text

/-- The index beside a URI is not printed. -/
def withoutHiddenIndex (id : ExpandedNodeId) : ExpandedNodeId :=
  if id.namespaceUri = [] then id else { id with nodeId := ⟨0, id.nodeId.identifier⟩ }

/-- No index is hidden behind a URI. -/
def ShowsIndex (id : ExpandedNodeId) : Prop :=
  id.nodeId.namespaceIndex = 0 ∨ id.namespaceUri = []

theorem ShowsIndex.without_hidden_index {id : ExpandedNodeId} (shows : id.ShowsIndex) :
    id.withoutHiddenIndex = id := by
  obtain ⟨⟨index, identifier⟩, uri, server⟩ := id
  unfold withoutHiddenIndex
  rcases shows with rfl | rfl
  · exact ite_self _
  · exact if_pos rfl

theorem drop_server_text (id : ExpandedNodeId) :
    dropLiteral? (Octets.ascii ['s', 'v', 'r', '=']) id.textOnServer = none := by
  unfold textOnServer
  by_cases local_name : id.namespaceUri = []
  · rw [if_pos local_name]
    exact id.nodeId.drop_literal_text (Or.inr rfl)
  · rw [if_neg local_name]
    rfl

theorem parse_on_server (id : ExpandedNodeId) (whole : Octets) :
    parseOnServer id.serverIndex whole id.textOnServer = .ok id.withoutHiddenIndex := by
  obtain ⟨node, uri, server⟩ := id
  unfold parseOnServer textOnServer withoutHiddenIndex
  by_cases local_name : uri = []
  · subst local_name
    have plain := node.drop_literal_text (Or.inl rfl)
    simp only [if_true, plain, node.parse_text]
    rfl
  · have dropped := drop_literal_append (Octets.ascii ['n', 's', 'u', '='])
      (escapeUri uri ++ 0x3B :: node.identifier.text)
    simp only [if_neg local_name, List.append_assoc, dropped,
      split_semicolon_append (escape_no_semicolon uri)]
    cases escaped : escapeUri uri with
    | nil => exact absurd escaped (escape_ne_nil local_name)
    | cons first rest =>
        simp only [node.identifier.parse_text, ← escaped, unescape_escape]
        rfl

theorem parse_text (id : ExpandedNodeId) : parse id.text = .ok id.withoutHiddenIndex := by
  have whole : id.text = (if id.serverIndex = 0 then []
      else Octets.ascii ['s', 'v', 'r', '='] ++ decimal id.serverIndex.toNat ++ [0x3B])
        ++ id.textOnServer := rfl
  unfold parse
  by_cases here : id.serverIndex = 0
  · rw [if_pos here, List.nil_append] at whole
    simp only [whole, id.drop_server_text]
    rw [← here]
    exact id.parse_on_server _
  · have dropped := drop_literal_append (Octets.ascii ['s', 'v', 'r', '='])
      (decimal id.serverIndex.toNat ++ 0x3B :: id.textOnServer)
    rw [if_neg here, List.append_assoc, List.append_assoc, List.cons_append, List.nil_append]
      at whole
    simp only [whole, dropped, split_semicolon_append (decimal_no_semicolon _),
      parse_uint32_decimal]
    exact id.parse_on_server _

theorem parse_on_server_error {server : UInt32} {whole text : Octets} {error : Error}
    (part : text <:+ whole) (failed : parseOnServer server whole text = .error error) :
    ∃ shown, shown <:+ whole ∧ error = .invalidNodeId shown := by
  unfold parseOnServer at failed
  split at failed
  · obtain ⟨shown, tail, same⟩ := NodeId.parse_error (error_of_map failed)
    exact ⟨shown, tail.trans part, same⟩
  · rename_i rest dropped
    split at failed
    · cases failed
      exact ⟨whole, List.suffix_refl _, rfl⟩
    · cases failed
      exact ⟨whole, List.suffix_refl _, rfl⟩
    · rename_i uri tail _ split_off
      have inside := (split_semicolon_suffix split_off).trans (drop_literal_suffix dropped)
      exact ⟨tail, inside.trans part, Identifier.parse_error (error_of_map failed)⟩

theorem parse_error {text : Octets} {error : Error} (failed : parse text = .error error) :
    ∃ shown, shown <:+ text ∧ error = .invalidNodeId shown := by
  unfold parse at failed
  split at failed
  · exact parse_on_server_error (List.suffix_refl _) failed
  · rename_i rest dropped
    split at failed
    · cases failed
      exact ⟨text, List.suffix_refl _, rfl⟩
    · rename_i part tail split_off
      split at failed
      · cases failed
        exact ⟨text, List.suffix_refl _, rfl⟩
      · exact parse_on_server_error
          ((split_semicolon_suffix split_off).trans (drop_literal_suffix dropped)) failed

end ExpandedNodeId

/-- Identifiers are read back from their text, and expanded ones too unless they hide an index, so
that no two have the same text. Every other text is refused with the same status, and the end of it
that is no identifier. -/
theorem NodeId.printed_is_read_back :
    (∀ id : NodeId, NodeId.parse id.text = .ok id) ∧
    (∀ id : ExpandedNodeId, id.ShowsIndex → ExpandedNodeId.parse id.text = .ok id) ∧
    (∀ first second : NodeId, first.text = second.text → first = second) ∧
    (∀ first second : ExpandedNodeId, first.ShowsIndex → second.ShowsIndex →
      first.text = second.text → first = second) ∧
    (∀ (text : Octets) (error : Error),
      NodeId.parse text = .error error ∨ ExpandedNodeId.parse text = .error error →
        error.kind.status? = some .badNodeIdInvalid ∧
          ∃ shown, shown <:+ text ∧ error = .invalidNodeId shown) := by
  have expanded (id : ExpandedNodeId) (shows : id.ShowsIndex) :
      ExpandedNodeId.parse id.text = .ok id := by
    rw [id.parse_text, shows.without_hidden_index]
  refine ⟨NodeId.parse_text, expanded, ?_, ?_, ?_⟩
  · intro first second same
    have parsed := first.parse_text
    rw [same, second.parse_text] at parsed
    exact (Except.ok.inj parsed).symm
  · intro first second first_shows second_shows same
    have parsed := expanded first first_shows
    rw [same, expanded second second_shows] at parsed
    exact (Except.ok.inj parsed).symm
  · intro text error failed
    have cause : ∃ shown, shown <:+ text ∧ error = .invalidNodeId shown :=
      failed.elim NodeId.parse_error ExpandedNodeId.parse_error
    obtain ⟨shown, part, rfl⟩ := cause
    exact ⟨rfl, shown, part, rfl⟩

/-- Semicolons and percent signs in the URI `%3B;` and in the string behind it. -/
theorem NodeId.printed_is_read_back_with_escapes :
    let id : ExpandedNodeId := ⟨⟨0, .string [0x3B, 0x25]⟩, [0x25, 0x33, 0x42, 0x3B], 7⟩
    id.ShowsIndex ∧ ExpandedNodeId.parse id.text = .ok id ∧
      (∀ other : ExpandedNodeId, other.ShowsIndex → id.text = other.text → id = other) ∧
      NodeId.parse [0x69] = .error (.invalidNodeId [0x69]) ∧
      (Error.invalidNodeId [0x69]).kind.status? = some .badNodeIdInvalid := by
  intro id
  obtain ⟨_, expanded, _, injective, refused⟩ := NodeId.printed_is_read_back
  have failed : NodeId.parse [0x69] = .error (.invalidNodeId [0x69]) := rfl
  exact ⟨Or.inl rfl, expanded id (Or.inl rfl), fun other => injective id other (Or.inl rfl), failed,
    (refused _ _ (Or.inl failed)).1⟩

end OpcUa
