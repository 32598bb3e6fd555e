import Mathlib.Data.Multiset.Basic
import ServiceBus.Proofs.Registry.Filed

/-!
# The indices as a function of the endpoints

`r.Mirrored`: each index of `r` is the one that its endpoints call for, so whoever knows the
endpoints knows both indices. Whatever is called on a registry that was empty, refused calls
included, leaves it so (`mirrored_calls`).
-/

namespace ServiceBus

namespace Index
variable {x : Index} {n : QualifiedName} {p : QualifiedName → EndpointId → Prop}

/-- The ids filed under a name, in no order; none where the index has no entry. -/
def filed? (x : Index) (n : QualifiedName) : Option (Multiset EndpointId) :=
  (x.get? n).map fun ks => ↑ks

/-- The entry that ids make: without ids there is none. -/
def entryOf (ks : List EndpointId) : Option (Multiset EndpointId) :=
  if ks = [] then none else some ↑ks

/-- Listing each id once and pruning what is empty, an index has no choice but the order. -/
theorem Lists.filed?_eq (h : x.Lists p) {ks : List EndpointId} (nodup : ks.Nodup)
    (hks : ∀ k, k ∈ ks ↔ p n k) : x.filed? n = entryOf ks := by
  have hmem (k : EndpointId) : k ∈ x.ids n ↔ k ∈ ks := (h.mem_iff n k).trans (hks k).symm
  have hperm : (x.ids n).Perm ks := (List.perm_ext_iff_of_nodup (h.nodup n) nodup).2 hmem
  have hpruned := h.pruned n
  unfold filed? entryOf
  unfold ids at hperm
  cases hx : x.get? n with
  | none =>
    rw [hx] at hperm
    rw [if_pos (List.nil_perm.1 hperm)]
    rfl
  | some l =>
    rw [hx] at hperm hpruned
    have hl : ks ≠ [] := fun hk => hpruned (congrArg some (List.perm_nil.1 (hk ▸ hperm)))
    rw [if_neg hl]
    exact congrArg some (Multiset.coe_eq_coe.2 hperm)

end Index

namespace Registry
variable {r : Registry} {t : Table EndpointId Endpoint} {p : EndpointId → Endpoint → Bool}

/-- The ids of the endpoints that satisfy a test. -/
def idsWhere (t : Table EndpointId Endpoint) (p : EndpointId → Endpoint → Bool) :
    List EndpointId := (t.filter p).keys

theorem nodup_idsWhere : (idsWhere t p).Nodup := (t.filter p).distinct

theorem mem_idsWhere {k : EndpointId} :
    k ∈ idsWhere t p ↔ ∃ e, t.get? k = some e ∧ p k e = true := by
  simp [idsWhere, Table.keys, Table.filter, Table.get?_eq_some_iff]

structure Mirrored (r : Registry) : Prop where
  own_id : ∀ k e, r.endpoints.get? k = some e → e.id = k
  services : ∀ s,
    r.byService.filed? s = Index.entryOf (idsWhere r.endpoints fun k _ => k.service = s)
  interfaces : ∀ i,
    r.byInterface.filed? i = Index.entryOf (idsWhere r.endpoints fun _ e => i ∈ e.interfaces)

theorem Filed.mirrored (h : r.Filed) : r.Mirrored where
  own_id := h.own_id
  services s := h.services.filed?_eq nodup_idsWhere fun k => by
    rw [mem_idsWhere]
    refine exists_congr fun e => and_congr_right fun he => ?_
    -- an endpoint names the service that the id it is held under names
    rw [← h.own_id k e he, decide_eq_true_eq]
    rfl
  interfaces i := h.interfaces.filed?_eq nodup_idsWhere fun k => by
    simp only [mem_idsWhere, decide_eq_true_eq]
    rfl

theorem mirrored_calls (l : List Call) : (l.foldl after .empty).Mirrored :=
  (Reachable.filed ⟨l, rfl⟩).mirrored

end Registry

end ServiceBus
