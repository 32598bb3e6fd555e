import ServiceBus.Proofs.Endpoint.Written
import ServiceBus.Proofs.Registry.Filed
import ServiceBus.Registry.Lookup

/-!
# References lead back to live endpoints

The reference made for an endpoint carries the endpoint's own id and an address that the endpoint
accepts (`Endpoint.accepts_address`). What a reference names is tried before any other endpoint, so
as long as the endpoint is live its reference resolves to it, also from its document, whatever else
is published, pinned or linked (`Reachable.resolve_written`).
-/

namespace ServiceBus

theorem Endpoint.accepts_address (e : Endpoint) : e.accepts e.address = true := by
  unfold accepts address
  cases e.protocols with
  | nil => simp
  | cons p rest =>
    have first : p.toList.isPrefixOf (p ++ e.name).toList = true := by
      rw [String.toList_append, List.isPrefixOf_iff_prefix]
      exact List.prefix_append _ _
    exact List.any_eq_true.2 ⟨p, List.mem_cons_self, first⟩

namespace Registry
variable {r : Registry} {e : Endpoint} {k : EndpointId} {ref : Reference}

theorem resolve_of_named (live : r.get? ⟨ref.service, ref.element.localPart⟩ = some e)
    (accepts : e.accepts ref.address = true) : r.resolve ref = some e := by
  unfold resolve
  rw [live, Option.filter_some, if_pos accepts]
  rfl

/-- The reference made for an endpoint names it by its id. -/
theorem resolve_ofEndpoint (live : r.get? e.id = some e) : r.resolve (.ofEndpoint e) = some e :=
  resolve_of_named live e.accepts_address

/-- The document of a live endpoint's reference resolves to what is held under the endpoint's id,
which is the endpoint. -/
theorem Reachable.resolve_written (h : r.Reachable) (live : r.get? k = some e) :
    ∃ ref, Reference.read (.ofString (Reference.ofEndpoint e).write) = .ok ref ∧
      r.resolve ref = r.get? e.id ∧ r.get? e.id = some e := by
  have own : r.get? e.id = some e := by rwa [h.filed.own_id k e live]
  exact ⟨_, Reference.read_write _, (resolve_ofEndpoint own).trans own.symm, own⟩

/-- Two endpoints of one service whose addresses spell the same text. -/
def alike : List Endpoint :=
  [⟨⟨"a"⟩, ⟨"urn:s", "orders"⟩, "bc", [], .provider, ["a", "", "ab"]⟩,
    ⟨⟨"b"⟩, ⟨"urn:s", "orders"⟩, "c", [⟨"urn:s", "Orders"⟩], .provider, ["ab", "abc"]⟩]

/-- The registry in which these endpoints have been published, one after the other. -/
def publishing (l : List Endpoint) : Registry := (l.map Call.register).foldl after .empty

theorem reachable_publishing (l : List Endpoint) : (publishing l).Reachable := ⟨_, rfl⟩

/-- Both are published, with a link from the one to the other and a pin. -/
def alikeCalls : List Call :=
  alike.map .register ++
    [.link ⟨⟨"urn:s", "orders"⟩, "bc"⟩ ⟨⟨"urn:s", "orders"⟩, "c"⟩,
      .pin ⟨"urn:s", "Orders"⟩ ⟨⟨"urn:s", "orders"⟩, "bc"⟩]

theorem resolve_written_alike :
    (alike.map (·.address) = ["abc", "abc"]) ∧ ∀ e ∈ alike,
      ∃ ref, Reference.read (.ofString (Reference.ofEndpoint e).write) = .ok ref ∧
        (alikeCalls.foldl after .empty).resolve ref = (alikeCalls.foldl after .empty).get? e.id ∧
        (alikeCalls.foldl after .empty).get? e.id = some e := by
  refine ⟨by decide, fun e he => ?_⟩
  have live : ∀ e ∈ alike, (alikeCalls.foldl after .empty).get? e.id = some e := by decide
  exact Reachable.resolve_written ⟨alikeCalls, rfl⟩ (live e he)

end Registry

end ServiceBus
