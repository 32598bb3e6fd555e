import Mathlib.Data.List.Nodup
import ServiceBus.Proofs.Bus.Route

/-!
# Links are followed alike by every way of addressing

`r.follow k` is what the id `k` stands for: the live endpoint that holds it, or else the one that its
link leads to. A service stands for what the ids in it stand for, each endpoint once, and naming an
endpoint stands for the same as its id. An exchange is thus sent to one and the same virtual endpoint
whether it names that or only its service (`followed`).
-/

namespace ServiceBus

namespace Registry
variable {r : Registry} {e : Endpoint} {k : EndpointId} {s : QualifiedName}

def follow (r : Registry) (k : EndpointId) : Option Endpoint := (r.get? k).or (r.linked? k)

theorem follow_of_live (live : r.get? k = some e) : r.follow k = some e := by
  rw [follow, live, Option.some_or]

theorem follow_of_vacant (vacant : r.get? k = none) : r.follow k = r.linked? k := by
  rw [follow, vacant, Option.none_or]

theorem Filed.linked?_eq_some_iff (h : r.Filed) :
    r.linked? k = some e ↔ r.links.get? k = some e.id ∧ r.get? e.id = some e := by
  rw [linked?, Option.bind_eq_bind, Option.bind_eq_some_iff]
  constructor
  · rintro ⟨j, link, live⟩
    rw [h.own_id j e live]
    exact ⟨link, live⟩
  · rintro ⟨link, live⟩
    exact ⟨e.id, link, live⟩

/-- What a service offers, it offers under an id that leads there. -/
theorem Filed.offers_iff (h : r.Filed) : r.Offers s e ↔ ∃ k, k.service = s ∧ r.follow k = some e := by
  constructor
  · rintro (⟨live, service⟩ | ⟨k, vacant, service, link, live⟩)
    · exact ⟨e.id, service, follow_of_live live⟩
    · exact ⟨k, service, (follow_of_vacant vacant).trans (h.linked?_eq_some_iff.2 ⟨link, live⟩)⟩
  · rintro ⟨k, service, leads⟩
    cases live : r.get? k with
    | some a =>
      obtain rfl := Option.some.inj ((follow_of_live live).symm.trans leads)
      obtain rfl := h.own_id k a live
      exact .own live service
    | none =>
      obtain ⟨link, target⟩ := h.linked?_eq_some_iff.1 ((follow_of_vacant live).symm.trans leads)
      exact .linked k live service link target

theorem nodup_addMissing {ks : List EndpointId} (h : ks.Nodup) (l : List EndpointId) :
    (addMissing ks l).Nodup := by
  induction l generalizing ks with
  | nil => exact h
  | cons k l ih =>
    rw [addMissing]
    split
    · exact ih h
    · next new =>
      refine ih (List.nodup_append.2 ⟨h, List.nodup_singleton k, fun a mem b single same => ?_⟩)
      rw [List.mem_singleton.1 single] at same
      exact new (same ▸ mem)

theorem Filed.nodup_lookupService (h : r.Filed) (s : QualifiedName) : (r.lookupService s).Nodup := by
  refine (nodup_addMissing (h.services.nodup s) _).filterMap fun j k e first second => ?_
  rw [← h.own_id j e first, ← h.own_id k e second]

end Registry

namespace Bus
variable {b : Bus} {c t : Endpoint} {e : Exchange}

/-- Naming an endpoint leads where its id leads, unless another component holds the id. -/
theorem named?_eq_some_iff_follow :
    b.named? t = some c ↔ b.registry.follow t.id = some c ∧
      ∀ live, b.registry.get? t.id = some live → live.component = t.component := by
  unfold named?
  cases live : b.registry.get? t.id with
  | none => simp [Registry.follow_of_vacant live]
  | some a =>
    rw [Registry.follow_of_live live]
    by_cases own : a.component = t.component <;> simp [own]

theorem choose_of_target (target : e.target = some t) :
    (b.choose e).2 = (b.named? t).filter b.isRoutable := by
  simp only [choose, candidates, target]
  cases b.named? t with
  | none => rfl
  | some a => by_cases route : b.isRoutable a <;> simp [route, Option.filter_some]

/-- What resolving answers is what has been chosen. -/
theorem resolveTarget_ok_iff (x : Nat) :
    (b.resolveTarget x).2 = .ok c ↔ (b.choose (b.exchange x)).2 = some c := by
  rcases choice : b.choose (b.exchange x) with ⟨selector, _ | target⟩ <;>
    simp [resolveTarget, choice]

theorem mem_routes_of_service {s : QualifiedName} (hb : b.registry.Filed) (unnamed : e.target = none)
    (service : e.service = some s) (interface : e.interface = none) :
    c ∈ b.routes e ↔
      (∃ k, k.service = s ∧ b.registry.follow k = some c) ∧ b.isRoutable c = true := by
  have candidates : b.candidates e = b.registry.lookupService s := by
    simp only [candidates, addressed, unnamed, service, interface]
  rw [routes, List.mem_filter, candidates, hb.mem_lookupService, hb.offers_iff]

/-- How a bus follows the ids of its registry. -/
structure FollowsLinks (b : Bus) : Prop where
  /-- A service has what its ids lead to, -/
  service : ∀ s e, e ∈ b.registry.lookupService s ↔ ∃ k, k.service = s ∧ b.registry.follow k = some e
  /-- each once. -/
  once : ∀ s, (b.registry.lookupService s).Nodup
  /-- An exchange that names an endpoint goes where its id leads, if it can go anywhere. -/
  named : ∀ x t, (b.exchange x).target = some t → ∀ c, (b.resolveTarget x).2 = .ok c ↔
    b.registry.follow t.id = some c ∧ b.isRoutable c = true ∧
      ∀ live, b.registry.get? t.id = some live → live.component = t.component
  /-- An exchange that names a service alone can go where the ids of the service lead. -/
  unnamed : ∀ x s, (b.exchange x).target = none → (b.exchange x).service = some s →
    (b.exchange x).interface = none → ∀ c, c ∈ b.routes (b.exchange x) ↔
      (∃ k, k.service = s ∧ b.registry.follow k = some c) ∧ b.isRoutable c = true

theorem followed (b : Bus) (hb : b.registry.Reachable) : b.FollowsLinks where
  service s e := by rw [hb.filed.mem_lookupService, hb.filed.offers_iff]
  once := hb.filed.nodup_lookupService
  named x t target c := by
    rw [resolveTarget_ok_iff, choose_of_target target, Option.filter_eq_some_iff,
      named?_eq_some_iff_follow, and_assoc, and_comm (b := b.isRoutable c = true)]
  unnamed x s unnamed service interface c := mem_routes_of_service hb.filed unnamed service interface

theorem followed_linkedBus :
    linkedBus.registry.Reachable ∧ linkedBus.registry.get? ⟨.bare "Stock", "any"⟩ = none ∧
      stock ∈ linkedBus.registry.lookupService (.bare "Stock") ∧
      (linkedBus.resolveTarget 0).2 = .ok stock := by
  have leads : linkedBus.registry.follow ⟨.bare "Stock", "any"⟩ = some stock := rfl
  have follows := linkedBus.followed ⟨_, rfl⟩
  exact ⟨⟨_, rfl⟩, rfl, (follows.service _ _).2 ⟨_, rfl, leads⟩,
    (follows.named 0 _ rfl stock).2 ⟨leads, rfl, nofun⟩⟩

end Bus

end ServiceBus
