import ServiceBus.Proofs.Registry.Cleared

/-!
# What publishing adds and withdrawing takes away

`r.Published e r'` and `r.Withdrawn l r'` say all that an accepted call does to the endpoints, the
history, the pins, the links and the external endpoints. `register` and `unregister` do one of these
or nothing; withdrawing in bulk withdraws every endpoint it goes through, as each of them is still
live when its turn comes (`withdrawn_unregisterAll`).
-/

namespace ServiceBus.Registry
variable {r r' r'' : Registry} {e : Endpoint} {k : EndpointId} {c : ComponentId}
  {l l' : List Endpoint}

structure Published (r : Registry) (e : Endpoint) (r' : Registry) : Prop where
  endpoints : r'.endpoints = r.endpoints.insert e.id e
  history : r'.history = r.history ++ [.registered e]
  pins : r'.pins = r.pins
  links : r'.links = r.links
  externals : r'.externals = r.externals

structure Withdrawn (r : Registry) (l : List Endpoint) (r' : Registry) : Prop where
  endpoints : r'.endpoints = l.foldl (fun t e => t.erase e.id) r.endpoints
  history : r'.history = r.history ++ l.map .unregistered
  pins : r'.pins = r.pins
  links : r'.links = r.links
  externals : r'.externals = r.externals

theorem Published.get? (h : r.Published e r') (k : EndpointId) :
    r'.get? k = if k = e.id then some e else r.get? k := by
  rw [Registry.get?, h.endpoints, Table.get?_insert]
  rfl

namespace Withdrawn

theorem refl (r : Registry) : r.Withdrawn [] r := ⟨rfl, (List.append_nil _).symm, rfl, rfl, rfl⟩

theorem trans (h : r.Withdrawn l r') (h' : r'.Withdrawn l' r'') : r.Withdrawn (l ++ l') r'' where
  endpoints := by rw [h'.endpoints, h.endpoints, List.foldl_append]
  history := by rw [h'.history, h.history, List.map_append, List.append_assoc]
  pins := h'.pins.trans h.pins
  links := h'.links.trans h.links
  externals := h'.externals.trans h.externals

theorem get? (h : r.Withdrawn l r') (k : EndpointId) :
    r'.get? k = if k ∈ l.map Endpoint.id then none else r.get? k := by
  rw [Registry.get?, h.endpoints, Registry.get?]
  generalize r.endpoints = t
  clear h
  induction l generalizing t with
  | nil => rfl
  | cons a l ih =>
    rw [List.foldl_cons, ih, Table.get?_erase, List.map_cons]
    by_cases self : k = a.id <;> simp [self]

end Withdrawn

/-! ### One endpoint -/

theorem register_cases (r : Registry) (e : Endpoint) :
    (∃ old, r.get? e.id = some old ∧ old.component ≠ e.component ∧
      r.register e = .error (.duplicateEndpoint e.id old.component e.component)) ∨
    ∃ r', r.register e = .ok r' ∧ (∀ old, r.get? e.id = some old → old.component = e.component) ∧
      r.Published e r' := by
  unfold register
  cases live : r.get? e.id with
  | none => exact .inr ⟨_, rfl, nofun, rfl, rfl, rfl, rfl, rfl⟩
  | some old =>
    dsimp only
    split
    · next foreign => exact .inl ⟨old, rfl, foreign, rfl⟩
    · next own =>
      exact .inr ⟨_, rfl, fun _ same => Option.some.inj same ▸ not_not.1 own, rfl, rfl, rfl, rfl, rfl⟩

theorem unregister_foreign (foreign : ∀ e, r.get? k = some e → e.component ≠ c) :
    r.unregister c k = (r, none) := by
  unfold unregister
  cases live : r.get? k with
  | none => rfl
  | some old => exact if_pos (foreign old live)

theorem unregister_own (live : r.get? e.id = some e) :
    ∃ r', r.unregister e.component e.id = (r', some e) ∧ r.Withdrawn [e] r' := by
  unfold unregister
  rw [live]
  dsimp only
  rw [if_neg (not_not.2 rfl)]
  exact ⟨_, rfl, rfl, rfl, rfl, rfl, rfl⟩

/-- The owner of a live endpoint withdraws it, and nobody else changes anything. -/
theorem Filed.unregister_turn (h : r.Filed) (c : ComponentId) (k : EndpointId) :
    (r.unregister c k = (r, none) ∧ ∀ e, r.get? k = some e → e.component ≠ c) ∨
      ∃ e r', r.unregister c k = (r', some e) ∧ r.get? k = some e ∧ e.component = c ∧ e.id = k ∧
        r.Withdrawn [e] r' := by
  by_cases own : ∃ e, r.get? k = some e ∧ e.component = c
  · obtain ⟨e, live, rfl⟩ := own
    obtain rfl := h.own_id k e live
    obtain ⟨r', turn, gone⟩ := unregister_own live
    exact .inr ⟨e, r', turn, live, rfl, rfl, gone⟩
  · have foreign : ∀ e, r.get? k = some e → e.component ≠ c := fun e live mine =>
      own ⟨e, live, mine⟩
    exact .inl ⟨unregister_foreign foreign, foreign⟩

/-! ### Many endpoints -/

theorem withdrawn_unregisterAll (live : ∀ e ∈ l, r.get? e.id = some e)
    (distinct : (l.map Endpoint.id).Nodup) :
    r.Withdrawn l (r.unregisterAll l).1 ∧ (r.unregisterAll l).2 = l.length := by
  induction l generalizing r with
  | nil => exact ⟨.refl r, rfl⟩
  | cons e l ih =>
    obtain ⟨r', turn, gone⟩ := unregister_own (live e List.mem_cons_self)
    rw [List.map_cons, List.nodup_cons] at distinct
    have still : ∀ a ∈ l, r'.get? a.id = some a := fun a mem => by
      have other : a.id ≠ e.id := fun same => distinct.1 (same ▸ List.mem_map_of_mem mem)
      rw [gone.get?, if_neg (by simpa using other)]
      exact live a (List.mem_cons_of_mem e mem)
    obtain ⟨rest, count⟩ := ih still distinct.2
    unfold unregisterAll
    rw [turn]
    exact ⟨gone.trans rest, by rw [List.length_cons, ← count]; rfl⟩

theorem Filed.mem_values (h : r.Filed) : e ∈ r.endpoints.values ↔ r.get? e.id = some e := by
  rw [Table.mem_values_iff]
  constructor
  · rintro ⟨k, live⟩
    rwa [h.own_id k e live]
  · exact fun live => ⟨e.id, live⟩

theorem Filed.nodup_ids (h : r.Filed) : (r.endpoints.values.map Endpoint.id).Nodup := by
  have keys : r.endpoints.values.map Endpoint.id = r.endpoints.keys := by
    rw [Table.values, List.map_map]
    exact List.map_congr_left fun entry mem => h.own_id _ _ (r.endpoints.get?_eq_some_iff.2 mem)
  rw [keys]
  exact r.endpoints.distinct

theorem Filed.withdrawn_unregisterComponent (h : r.Filed) (c : ComponentId) :
    r.Withdrawn (r.ofComponent c) (r.unregisterComponent c).1 ∧
      (r.unregisterComponent c).2 = (r.ofComponent c).length :=
  withdrawn_unregisterAll (fun _ mem => h.mem_values.1 (List.mem_filter.1 mem).1)
    (h.nodup_ids.sublist (List.filter_sublist.map _))

/-- Clearing withdraws every endpoint, and then drops the rest. -/
theorem Filed.withdrawn_clear (h : r.Filed) :
    ∃ r', r.Withdrawn r.endpoints.values r' ∧
      r.clear = { r' with pins := .empty, links := .empty, externals := .empty } :=
  ⟨_, (withdrawn_unregisterAll (fun _ mem => h.mem_values.1 mem) h.nodup_ids).1, rfl⟩

/-- Live endpoints do not go without the registry changing. -/
theorem Withdrawn.eq_nil (h : r.Withdrawn l r') (live : ∀ e ∈ l, r.get? e.id = some e)
    (same : r'.endpoints = r.endpoints) : l = [] := by
  cases l with
  | nil => rfl
  | cons e l =>
    have out : r'.get? e.id = none := by rw [h.get?, if_pos (by simp)]
    rw [Registry.get?, same] at out
    cases out.symm.trans (live e List.mem_cons_self)

/-- The live endpoints that remain when a component's own are withdrawn. -/
theorem Filed.get?_unregisterComponent (h : r.Filed) (c : ComponentId) (k : EndpointId) :
    (r.unregisterComponent c).1.get? k = (r.get? k).filter fun e => e.component ≠ c := by
  rw [(h.withdrawn_unregisterComponent c).1.get?]
  have mem : k ∈ (r.ofComponent c).map Endpoint.id ↔ ∃ e, r.get? k = some e ∧ e.component = c := by
    simp only [ofComponent, List.mem_map, List.mem_filter, h.mem_values, decide_eq_true_eq]
    constructor
    · rintro ⟨e, ⟨live, own⟩, rfl⟩
      exact ⟨e, live, own⟩
    · rintro ⟨e, live, own⟩
      obtain rfl := h.own_id k e live
      exact ⟨e, ⟨live, own⟩, rfl⟩
  cases live : r.get? k with
  | none => simp
  | some e => by_cases own : e.component = c <;> simp [mem, live, own, Option.filter_some]

end ServiceBus.Registry
