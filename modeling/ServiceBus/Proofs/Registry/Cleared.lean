import ServiceBus.Proofs.Registry.Filed

/-!
# Registries that have been cleared

Clearing a registry leaves nothing in it (`Filed.bare_clear`), and nothing comes into it again unless
somebody publishes, pins or links (`Bare.after`).
-/

namespace ServiceBus.Registry
variable {r : Registry} {k : EndpointId} {e : Endpoint}

/-- Nothing is published, pinned or linked. -/
structure Bare (r : Registry) : Prop where
  endpoints : ∀ k, r.endpoints.get? k = none
  externals : ∀ k, r.externals.get? k = none
  pins : ∀ i, r.pins.get? i = none
  links : ∀ k, r.links.get? k = none

/-- Whether the call publishes, pins or links something. -/
def Call.opens : Call → Bool
  | .register _ | .registerExternal _ | .pin .. | .link .. => true
  | _ => false

theorem unregister_of_none (h : r.get? k = none) (c : ComponentId) : r.unregister c k = (r, none) := by
  rw [unregister, h]

theorem get?_unregister_self (live : r.get? k = some e) :
    (r.unregister e.component k).1.get? k = none := by
  unfold unregister
  rw [live]
  dsimp only
  rw [if_neg (not_not.2 rfl)]
  exact Table.get?_erase_self _ _

theorem get?_of_unregister {c : ComponentId} {j : EndpointId}
    (live : (r.unregister c j).1.get? k = some e) : r.get? k = some e := by
  obtain same | ⟨old, r', turn, -, -, endpoints, -⟩ := r.unregister_cases c j
  · rwa [same] at live
  · rw [turn, get?, endpoints, Table.get?_erase] at live
    split at live
    · cases live
    · exact live

/-- What is live after a withdrawal was live before, and has not been withdrawn. -/
theorem Filed.get?_unregisterAll (h : r.Filed) (l : List Endpoint)
    (live : (r.unregisterAll l).1.get? k = some e) : r.get? k = some e ∧ e ∉ l := by
  induction l generalizing r with
  | nil => exact ⟨live, List.not_mem_nil⟩
  | cons a l ih =>
    obtain ⟨live, out⟩ := ih (h.unregister a.component a.id) live
    have before := get?_of_unregister live
    refine ⟨before, fun mem => ?_⟩
    rcases List.mem_cons.1 mem with rfl | mem
    · obtain rfl := h.own_id k e before
      cases (get?_unregister_self before).symm.trans live
    · exact out mem

theorem Filed.bare_clear (h : r.Filed) : r.clear.Bare where
  endpoints k := by
    cases live : r.clear.endpoints.get? k with
    | none => rfl
    | some e =>
      obtain ⟨before, out⟩ := h.get?_unregisterAll r.endpoints.values live
      exact absurd (r.endpoints.mem_values_iff.2 ⟨k, before⟩) out
  externals _ := rfl
  pins _ := rfl
  links _ := rfl

namespace Bare

theorem unregisterAll (h : r.Bare) (l : List Endpoint) : (r.unregisterAll l).1 = r := by
  induction l with
  | nil => rfl
  | cons e l ih =>
    have turn := unregister_of_none (h.endpoints e.id) e.component
    show ((r.unregister e.component e.id).1.unregisterAll l).1 = r
    rwa [turn]

theorem after (h : r.Bare) {c : Call} (shut : c.opens = false) : (r.after c).Bare := by
  cases c with
  | register | registerExternal | pin | link => cases shut
  | unregister c k =>
    show (r.unregister c k).1.Bare
    rwa [unregister_of_none (h.endpoints k)]
  | unregisterComponent c =>
    show (r.unregisterAll _).1.Bare
    rwa [h.unregisterAll]
  | unregisterExternal k =>
    show (r.unregisterExternal k).1.Bare
    rwa [unregisterExternal, h.externals]
  | unpin i =>
    refine ⟨h.endpoints, h.externals, fun j => ?_, h.links⟩
    show (r.pins.erase i).get? j = none
    rw [Table.get?_erase, h.pins, ite_self]
  | unlink k =>
    refine ⟨h.endpoints, h.externals, h.pins, fun j => ?_⟩
    show (r.links.erase k).get? j = none
    rw [Table.get?_erase, h.links, ite_self]
  | clear =>
    refine ⟨fun k => ?_, fun _ => rfl, fun _ => rfl, fun _ => rfl⟩
    show (r.unregisterAll _).1.endpoints.get? k = none
    rw [h.unregisterAll, h.endpoints]

end Bare
end ServiceBus.Registry
