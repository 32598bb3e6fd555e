import ServiceBus.Proofs.Registry.Filed
import ServiceBus.Registry.Lookup

/-!
# What lookups find

Once a registry is `Filed`, a lookup says something about the live endpoints alone: `r.Offers s e`
for a service, and the pin or else the declared interfaces for an interface.
-/

namespace ServiceBus.Registry
variable {r : Registry} {e : Endpoint} {k : EndpointId} {s i : QualifiedName}

/-- Live endpoints of the service, and those that links lead to which start in the service at an id
that no live endpoint holds. -/
inductive Offers (r : Registry) (s : QualifiedName) (e : Endpoint) : Prop
  | own (live : r.get? e.id = some e) (service : e.service = s)
  | linked (k : EndpointId) (vacant : r.get? k = none) (service : k.service = s)
      (link : r.links.get? k = some e.id) (live : r.get? e.id = some e)

theorem mem_addMissing (ks l : List EndpointId) : k ∈ addMissing ks l ↔ k ∈ ks ∨ k ∈ l := by
  induction l generalizing ks with
  | nil => simp [addMissing]
  | cons j l ih =>
    rw [addMissing, ih, List.mem_cons]
    split
    · next hj =>
      constructor
      · exact fun h => h.imp_right .inr
      · rintro (h | rfl | h)
        · exact .inl h
        · exact .inl hj
        · exact .inr h
    · simp [or_assoc]

theorem mem_linkedIds :
    k ∈ r.linkedIds s ↔ ∃ j, r.get? j = none ∧ j.service = s ∧ r.links.get? j = some k := by
  simp only [linkedIds, get?, Table.contains, List.mem_map, List.mem_filter, Prod.exists,
    Table.get?_eq_some_iff, Bool.and_eq_true, decide_eq_true_eq, Bool.not_eq_true',
    Option.isSome_eq_false_iff, Option.isNone_iff_eq_none, exists_eq_right]
  constructor
  · rintro ⟨j, h, hs, hn⟩
    exact ⟨j, hn, hs, h⟩
  · rintro ⟨j, hn, hs, h⟩
    exact ⟨j, h, hs, hn⟩

theorem Filed.mem_live (h : r.Filed) {ks : List EndpointId} :
    e ∈ r.live ks ↔ e.id ∈ ks ∧ r.get? e.id = some e := by
  unfold live
  rw [List.mem_filterMap]
  constructor
  · rintro ⟨k, hk, he⟩
    rw [h.own_id k e he]
    exact ⟨hk, he⟩
  · rintro ⟨hk, he⟩
    exact ⟨e.id, hk, he⟩

theorem Filed.mem_lookupService (h : r.Filed) : e ∈ r.lookupService s ↔ r.Offers s e := by
  rw [lookupService, h.mem_live, mem_addMissing, h.services.mem_iff, mem_linkedIds]
  constructor
  · rintro ⟨⟨a, ha, hs⟩ | ⟨j, hj, hs, hl⟩, he⟩
    · obtain rfl := Option.some.inj (ha.symm.trans he)
      exact .own ha hs
    · exact .linked j hj hs hl he
  · rintro (⟨he, hs⟩ | ⟨j, hj, hs, hl, he⟩)
    · exact ⟨.inl ⟨e, he, hs⟩, he⟩
    · exact ⟨.inr ⟨j, hj, hs, hl⟩, he⟩

theorem Filed.mem_lookupInterface (h : r.Filed) :
    e ∈ r.lookupInterface i ↔ r.get? e.id = some e ∧
      (r.pins.get? i = some e.id ∨ r.pins.get? i = none ∧ i ∈ e.interfaces) := by
  unfold lookupInterface
  cases hp : r.pins.get? i with
  | some k =>
    simp only [Option.mem_toList, Option.some.injEq, reduceCtorEq, false_and, or_false]
    constructor
    · intro he
      rw [h.own_id k e he]
      exact ⟨he, rfl⟩
    · rintro ⟨he, rfl⟩
      exact he
  | none =>
    simp only [h.mem_live, h.interfaces.mem_iff, reduceCtorEq, false_or, true_and]
    constructor
    · rintro ⟨⟨a, ha, hi⟩, he⟩
      obtain rfl := Option.some.inj (ha.symm.trans he)
      exact ⟨ha, hi⟩
    · rintro ⟨he, hi⟩
      exact ⟨⟨e, he, hi⟩, he⟩

end ServiceBus.Registry
