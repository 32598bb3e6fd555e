import ServiceBus.Proofs.Registry.Index

/-!
# A registry's indices agree with its endpoints

`r.Filed` is the invariant of the registry: every live endpoint is held under its own id, and the
two indices list exactly the live ids, by service and by declared interface. Publishing, republishing
with other interfaces and withdrawing preserve it, so every `Reachable` registry has it.
-/

namespace ServiceBus.Registry
variable {r r' : Registry} {e : Endpoint} {k : EndpointId}

structure Filed (r : Registry) : Prop where
  own_id : ∀ k e, r.get? k = some e → e.id = k
  services : r.byService.Lists fun s k => ∃ e, r.get? k = some e ∧ e.service = s
  interfaces : r.byInterface.Lists fun i k => ∃ e, r.get? k = some e ∧ i ∈ e.interfaces

/-! ### What publishing and withdrawing do -/

theorem register_ok (h : r.register e = .ok r') :
    r'.endpoints = r.endpoints.insert e.id e ∧ r'.byService = r.byService.add e.service e.id ∧
      ∃ stale : List QualifiedName,
        (∀ i, i ∈ stale ↔ (∃ old, r.get? e.id = some old ∧ i ∈ old.interfaces) ∧ i ∉ e.interfaces) ∧
        r'.byInterface = e.interfaces.foldl (fun x i => x.add i e.id)
          (stale.foldl (fun x i => x.remove i e.id) r.byInterface) := by
  unfold register at h
  cases hg : r.get? e.id with
  | none =>
    rw [hg] at h
    obtain rfl := Except.ok.inj h
    exact ⟨rfl, rfl, [], by simp, rfl⟩
  | some old =>
    rw [hg] at h
    dsimp only at h
    split at h
    · cases h
    · obtain rfl := Except.ok.inj h
      exact ⟨rfl, rfl, _, fun i => by simp [Endpoint.implements], rfl⟩

theorem unregister_cases (r : Registry) (c : ComponentId) (k : EndpointId) :
    r.unregister c k = (r, none) ∨
      ∃ old r', r.unregister c k = (r', some old) ∧ r.get? k = some old ∧ old.component = c ∧
        r'.endpoints = r.endpoints.erase k ∧ r'.byService = r.byService.remove old.service old.id ∧
        r'.byInterface = old.interfaces.foldl (fun x i => x.remove i old.id) r.byInterface := by
  unfold unregister
  cases hg : r.get? k with
  | none => exact .inl rfl
  | some old =>
    dsimp only
    split
    · exact .inl rfl
    · next hc => exact .inr ⟨old, _, rfl, rfl, not_not.1 hc, rfl, rfl, rfl⟩

/-! ### The invariant -/

namespace Filed

theorem empty : Registry.empty.Filed where
  own_id k e h := by cases h
  services := Index.Lists.empty.congr fun s k => ⟨False.elim, fun ⟨e, h, _⟩ => by cases h⟩
  interfaces := Index.Lists.empty.congr fun i k => ⟨False.elim, fun ⟨e, h, _⟩ => by cases h⟩

theorem congr (h : r.Filed) (he : r'.endpoints = r.endpoints) (hs : r'.byService = r.byService)
    (hi : r'.byInterface = r.byInterface) : r'.Filed := by
  obtain ⟨own, services, interfaces⟩ := h
  unfold get? at own services interfaces
  refine ⟨?_, ?_, ?_⟩ <;> unfold get? <;> simpa only [he, hs, hi]

theorem register (h : r.Filed) (hr : r.register e = .ok r') : r'.Filed := by
  obtain ⟨he, hs, stale, hstale, hi⟩ := register_ok hr
  have hget : ∀ k, r'.get? k = if k = e.id then some e else r.get? k := fun k => by
    unfold get?
    rw [he, Table.get?_insert]
  refine ⟨fun k a ha => ?_, ?_, ?_⟩
  · rw [hget] at ha
    split at ha
    · next hk => exact Option.some.inj ha ▸ hk.symm
    · exact h.own_id k a ha
  · rw [hs]
    refine (h.services.add e.service e.id).congr fun s k => ?_
    rw [hget]
    by_cases hk : k = e.id
    · subst hk
      rw [if_pos rfl]
      constructor
      · rintro (⟨rfl, -⟩ | ⟨old, hold, rfl⟩)
        · exact ⟨e, rfl, rfl⟩
        · -- the id held before has the same service in it
          exact ⟨e, rfl, congrArg EndpointId.service (h.own_id _ _ hold).symm⟩
      · rintro ⟨a, ha, rfl⟩
        exact .inl ⟨Option.some.inj ha ▸ rfl, rfl⟩
    · simp [hk]
  · rw [hi]
    refine ((h.interfaces.removeAll stale e.id).addAll e.interfaces e.id).congr fun i k => ?_
    rw [hget]
    by_cases hk : k = e.id
    · subst hk
      rw [if_pos rfl]
      constructor
      · rintro (⟨hmem, -⟩ | ⟨hold, hns⟩)
        · exact ⟨e, rfl, hmem⟩
        · -- declared before and not stale, so declared now
          by_cases hmem : i ∈ e.interfaces
          · exact ⟨e, rfl, hmem⟩
          · exact absurd ⟨(hstale i).2 ⟨hold, hmem⟩, rfl⟩ hns
      · rintro ⟨a, ha, hmem⟩
        exact .inl ⟨Option.some.inj ha ▸ hmem, rfl⟩
    · simp [hk]

theorem unregister (h : r.Filed) (c : ComponentId) (k : EndpointId) :
    (r.unregister c k).1.Filed := by
  obtain h' | ⟨old, r', h', hold, -, he, hs, hi⟩ := r.unregister_cases c k <;> rw [h']
  · exact h
  have hid : old.id = k := h.own_id k old hold
  have hget : ∀ j, r'.get? j = if j = k then none else r.get? j := fun j => by
    unfold get?
    rw [he, Table.get?_erase]
  refine ⟨fun j a ha => ?_, ?_, ?_⟩
  · rw [hget] at ha
    split at ha
    · cases ha
    · exact h.own_id j a ha
  · rw [hs]
    refine (h.services.remove old.service old.id).congr fun s j => ?_
    rw [hget, hid]
    by_cases hj : j = k
    · subst hj
      simp +contextual [hold, eq_comm]
    · simp [hj]
  · rw [hi]
    refine (h.interfaces.removeAll old.interfaces old.id).congr fun i j => ?_
    rw [hget, hid]
    by_cases hj : j = k
    · subst hj
      simp [hold]
    · simp [hj]

theorem unregisterAll (h : r.Filed) (l : List Endpoint) : (r.unregisterAll l).1.Filed := by
  induction l generalizing r with
  | nil => exact h
  | cons e l ih => exact ih (h.unregister e.component e.id)

end Filed

/-! ### Reachable registries -/

inductive Call where
  | register (e : Endpoint)
  | unregister (c : ComponentId) (k : EndpointId)
  | unregisterComponent (c : ComponentId)
  | registerExternal (e : Endpoint)
  | unregisterExternal (k : EndpointId)
  | pin (i : QualifiedName) (k : EndpointId)
  | unpin (i : QualifiedName)
  | link (source target : EndpointId)
  | unlink (source : EndpointId)
  | clear

/-- The registry after a call, whatever its answer. -/
def after (r : Registry) : Call → Registry
  | .register e => (r.register e).toOption.getD r
  | .unregister c k => (r.unregister c k).1
  | .unregisterComponent c => (r.unregisterComponent c).1
  | .registerExternal e => (r.registerExternal e).toOption.getD r
  | .unregisterExternal k => (r.unregisterExternal k).1
  | .pin i k => r.pin i k
  | .unpin i => (r.unpin i).1
  | .link source target => (r.link source target).toOption.getD r
  | .unlink source => (r.unlink source).1
  | .clear => r.clear

def Reachable (r : Registry) : Prop := ∃ l : List Call, r = l.foldl after .empty

theorem Filed.after (h : r.Filed) (c : Call) : (r.after c).Filed := by
  cases c with
  | register e =>
    cases hr : r.register e with
    | error _ => simpa [Registry.after, hr, Except.toOption] using h
    | ok r' => simpa [Registry.after, hr, Except.toOption] using h.register hr
  | unregister c k => exact h.unregister c k
  | unregisterComponent c => exact h.unregisterAll _
  | registerExternal e =>
    simp only [Registry.after, Registry.registerExternal]
    split
    · exact h
    · exact h.congr rfl rfl rfl
  | unregisterExternal k =>
    simp only [Registry.after, Registry.unregisterExternal]
    split
    · exact h
    · exact h.congr rfl rfl rfl
  | link source target =>
    simp only [Registry.after, Registry.link]
    split
    · exact h
    · exact h.congr rfl rfl rfl
  | pin i k => exact h.congr rfl rfl rfl
  | unpin i => exact h.congr rfl rfl rfl
  | unlink source => exact h.congr rfl rfl rfl
  | clear => exact (h.unregisterAll r.endpoints.values).congr rfl rfl rfl

theorem Reachable.filed (h : r.Reachable) : r.Filed := by
  obtain ⟨l, rfl⟩ := h
  suffices ∀ r : Registry, r.Filed → (l.foldl Registry.after r).Filed from this _ Filed.empty
  induction l with
  | nil => exact fun r h => h
  | cons c l ih => exact fun r h => ih _ (h.after c)

end ServiceBus.Registry
