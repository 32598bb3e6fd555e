import ServiceBus.Proofs.Registry.Lookup
import ServiceBus.Proofs.Registry.References

/-!
# What a reference resolves to

A reference names an id, and `r.Names ref e` says that the endpoint `e` is live there and accepts
the address. If nobody is named, the endpoints of the service are searched for one that spells the
address (`e.Spells a`). The search misses nothing and finds nothing else (`Reachable.resolved`), and
an endpoint that spells an address accepts it, so whatever is found is live and accepts the address.
-/

namespace ServiceBus

namespace Endpoint
variable {e : Endpoint} {a : String}

/-- The address is one of the endpoint's protocols and its name. -/
def Spells (e : Endpoint) (a : String) : Prop := ∃ p ∈ e.protocols, a = p ++ e.name

theorem spells_iff : e.spells a = true ↔ e.Spells a := by
  simp only [spells, Spells, List.any_eq_true, decide_eq_true_eq, eq_comm (a := a)]

theorem prefix_iff {p a : String} : p.toList <+: a.toList ↔ ∃ rest, a = p ++ rest := by
  constructor
  · rintro ⟨cs, same⟩
    exact ⟨String.ofList cs, String.toList_injective (by simp [same])⟩
  · rintro ⟨rest, rfl⟩
    rw [String.toList_append]
    exact List.prefix_append _ _

theorem accepts_iff : e.accepts a = true ↔
    (e.protocols = [] ∧ (a = e.name ∨ a = e.id.display)) ∨
      ∃ p ∈ e.protocols, ∃ rest, a = p ++ rest := by
  unfold accepts
  cases e.protocols with
  | nil => simp
  | cons p ps => simp [prefix_iff]

theorem Spells.accepts (h : e.Spells a) : e.accepts a = true := by
  obtain ⟨p, declared, same⟩ := h
  exact accepts_iff.2 (.inr ⟨p, declared, e.name, same⟩)

end Endpoint

namespace Registry
variable {r : Registry} {c e : Endpoint} {ref : Reference}

/-- The endpoint is live under the id that the reference names, and accepts its address. -/
structure Names (r : Registry) (ref : Reference) (e : Endpoint) : Prop where
  live : r.get? ⟨ref.service, ref.element.localPart⟩ = some e
  accepts : e.accepts ref.address = true

theorem Names.resolve (h : r.Names ref e) : r.resolve ref = some e :=
  resolve_of_named h.live h.accepts

theorem resolve_of_unnamed (unnamed : ∀ e, ¬ r.Names ref e) :
    r.resolve ref = (r.lookupService ref.service).find? (·.spells ref.address) := by
  have nobody :
      (r.get? ⟨ref.service, ref.element.localPart⟩).filter (·.accepts ref.address) = none := by
    rw [Option.filter_eq_none_iff]
    exact fun e live accepts => unnamed e ⟨live, accepts⟩
  unfold resolve
  rw [nobody]
  rfl

/-- Where nobody is named, what is found belongs to the service and spells the address. -/
theorem spells_of_resolve (unnamed : ∀ e, ¬ r.Names ref e) (found : r.resolve ref = some c) :
    c ∈ r.lookupService ref.service ∧ c.Spells ref.address := by
  rw [resolve_of_unnamed unnamed] at found
  have spells := List.find?_some (p := fun e : Endpoint => e.spells ref.address) found
  exact ⟨List.mem_of_find?_eq_some found, Endpoint.spells_iff.1 spells⟩

theorem resolve_eq_none_iff (unnamed : ∀ e, ¬ r.Names ref e) :
    r.resolve ref = none ↔ ∀ c ∈ r.lookupService ref.service, ¬ c.Spells ref.address := by
  simp only [resolve_of_unnamed unnamed, List.find?_eq_none, Endpoint.spells_iff]

theorem Filed.live_of_mem_lookupService {s : QualifiedName} (h : r.Filed)
    (mem : c ∈ r.lookupService s) : r.get? c.id = some c := by
  cases h.mem_lookupService.1 mem <;> assumption

/-- Named or found, what a reference resolves to is live and accepts the address. -/
theorem Filed.accepts_of_resolve (h : r.Filed) (found : r.resolve ref = some c) :
    r.get? c.id = some c ∧ c.accepts ref.address = true := by
  by_cases named : ∃ e, r.Names ref e
  · obtain ⟨e, names⟩ := named
    obtain rfl := Option.some.inj (names.resolve.symm.trans found)
    exact ⟨by rw [h.own_id _ e names.live]; exact names.live, names.accepts⟩
  · obtain ⟨mem, spells⟩ := spells_of_resolve (fun e names => named ⟨e, names⟩) found
    exact ⟨h.live_of_mem_lookupService mem, spells.accepts⟩

/-- What a reference resolves to. -/
structure Resolved (r : Registry) (ref : Reference) : Prop where
  named : ∀ e, r.Names ref e → r.resolve ref = some e
  searched : (∀ e, ¬ r.Names ref e) → ∀ c, r.resolve ref = some c →
    c ∈ r.lookupService ref.service ∧ c.Spells ref.address
  none_iff : (∀ e, ¬ r.Names ref e) → (r.resolve ref = none ↔
    ∀ c ∈ r.lookupService ref.service, ¬ c.Spells ref.address)
  accepted : ∀ c, r.resolve ref = some c → r.get? c.id = some c ∧ c.accepts ref.address = true

theorem Reachable.resolved (h : r.Reachable) (ref : Reference) : r.Resolved ref where
  named _ names := names.resolve
  searched unnamed _ := spells_of_resolve unnamed
  none_iff := resolve_eq_none_iff
  accepted _ := h.filed.accepts_of_resolve

/-- A reference to the service of `alike` that names nobody and has the address of both. -/
def spelling : Reference := ⟨⟨"urn:s", "anybody"⟩, ⟨"urn:s", "orders"⟩, "abc"⟩

theorem resolved_spelling : ∃ c, (alikeCalls.foldl after .empty).Reachable ∧
    (∀ e, ¬ (alikeCalls.foldl after .empty).Names spelling e) ∧
    (alikeCalls.foldl after .empty).resolve spelling = some c ∧ c.Spells "abc" ∧
    c.accepts "abc" = true := by
  have resolved :=
    Reachable.resolved (r := alikeCalls.foldl after .empty) ⟨alikeCalls, rfl⟩ spelling
  have unnamed : ∀ e, ¬ (alikeCalls.foldl after .empty).Names spelling e := fun e names => by
    cases names.live
  have found : (alikeCalls.foldl after .empty).resolve spelling = alike.head? := by decide
  exact ⟨_, ⟨alikeCalls, rfl⟩, unnamed, found, (resolved.searched unnamed _ found).2,
    (resolved.accepted _ found).2⟩

end Registry

end ServiceBus
