import ServiceBus.Proofs.Registry.Withdrawals

/-!
# An id belongs to whoever published under it

`r.Guards`: nobody publishes over another component's endpoint, only the owner withdraws it, and a
component that withdraws all it owns takes nothing else along. So an id that changes hands has been
given up in between, by its owner or by clearing the registry (`Filed.givenUp`).
-/

namespace ServiceBus.Registry
variable {r : Registry} {a b : Endpoint} {k : EndpointId}

/-- The calls by which the owner of an id gives it up, and the one that empties the registry. -/
def Call.Yields (owner : ComponentId) (k : EndpointId) (c : Call) : Prop :=
  c = .unregister owner k ∨ c = .unregisterComponent owner ∨ c = .clear

/-- Along `l` there is a call that takes `k` from `owner`, who holds it until then. -/
def GivenUp (r : Registry) (owner : ComponentId) (k : EndpointId) (l : List Call) : Prop :=
  ∃ l₁ c l₂, l = l₁ ++ c :: l₂ ∧
    (∃ e, (l₁.foldl after r).get? k = some e ∧ e.component = owner) ∧
    c.Yields owner k ∧ ((l₁.foldl after r).after c).get? k = none

structure Guards (r : Registry) : Prop where
  refuses : ∀ e, (∃ why, r.register e = .error why) ↔
    ∃ old, r.get? e.id = some old ∧ old.component ≠ e.component
  refused : ∀ e why, r.register e = .error why → r.after (.register e) = r
  publishes : ∀ e r', r.register e = .ok r' → r.Published e r'
  removes : ∀ c k e, (r.unregister c k).2 = some e ↔ r.get? k = some e ∧ e.component = c
  removed : ∀ c k e, (r.unregister c k).2 = some e →
    e.id = k ∧ r.Withdrawn [e] (r.unregister c k).1
  spared : ∀ c k, (r.unregister c k).2 = none → (r.unregister c k).1 = r
  owned : ∀ c e, e ∈ r.ofComponent c ↔ r.get? e.id = some e ∧ e.component = c
  distinct : ∀ c, ((r.ofComponent c).map Endpoint.id).Nodup
  counted : ∀ c, (r.unregisterComponent c).2 = (r.ofComponent c).length
  withdrawn : ∀ c, r.Withdrawn (r.ofComponent c) (r.unregisterComponent c).1
  left : ∀ c k, (r.unregisterComponent c).1.get? k = (r.get? k).filter fun e => e.component ≠ c
  givenUp : ∀ k a b l, r.get? k = some a → (l.foldl after r).get? k = some b →
    a.component ≠ b.component → r.GivenUp a.component k l

namespace Filed

/-- What is owned stays with its owner unless the call takes it away. -/
theorem kept_or_yielded (h : r.Filed) (live : r.get? k = some a) (c : Call) :
    (∃ e, (r.after c).get? k = some e ∧ e.component = a.component) ∨
      c.Yields a.component k ∧ (r.after c).get? k = none := by
  have same {r' : Registry} (endpoints : r'.endpoints = r.endpoints) :
      ∃ e, r'.get? k = some e ∧ e.component = a.component :=
    ⟨a, by rw [get?, endpoints]; exact live, rfl⟩
  cases c with
  | register e =>
    refine .inl ?_
    obtain ⟨old, -, -, refused⟩ | ⟨r', turn, own, done⟩ := r.register_cases e
    · simp only [Registry.after, refused]
      exact same rfl
    · simp only [Registry.after, turn, Except.toOption, Option.getD_some]
      rw [done.get?]
      by_cases self : k = e.id
      · subst self
        exact ⟨e, if_pos rfl, (own a live).symm⟩
      · exact ⟨a, by rwa [if_neg self], rfl⟩
  | unregister c j =>
    simp only [Registry.after]
    obtain ⟨turn, -⟩ | ⟨e, r', turn, held, own, id, gone⟩ := h.unregister_turn c j <;> rw [turn]
    · exact .inl (same rfl)
    · by_cases self : k = j
      · subst self
        obtain rfl := Option.some.inj (held.symm.trans live)
        refine .inr ⟨.inl (by rw [own]), ?_⟩
        rw [gone.get?, if_pos (by simp [id])]
      · refine .inl ⟨a, ?_, rfl⟩
        rw [gone.get?, if_neg (by simpa [id] using self), live]
  | unregisterComponent c =>
    simp only [Registry.after, h.get?_unregisterComponent, live, Option.filter_some]
    by_cases own : a.component = c
    · exact .inr ⟨.inr (.inl (by rw [own])), by simp [own]⟩
    · exact .inl ⟨a, by simp [own], rfl⟩
  | clear => exact .inr ⟨.inr (.inr rfl), h.bare_clear.endpoints k⟩
  | registerExternal e =>
    refine .inl (same ?_)
    simp only [Registry.after, Registry.registerExternal]
    split <;> rfl
  | unregisterExternal j =>
    refine .inl (same ?_)
    simp only [Registry.after, Registry.unregisterExternal]
    split <;> rfl
  | link source target =>
    refine .inl (same ?_)
    simp only [Registry.after, link]
    split <;> rfl
  | pin | unpin | unlink => exact .inl (same rfl)

theorem givenUp (h : r.Filed) (held : r.get? k = some a) (l : List Call)
    (later : (l.foldl Registry.after r).get? k = some b) (moved : a.component ≠ b.component) :
    r.GivenUp a.component k l := by
  induction l generalizing r a with
  | nil => exact absurd (congrArg Endpoint.component (Option.some.inj (held.symm.trans later))) moved
  | cons c l ih =>
    obtain ⟨e, live, own⟩ | ⟨yields, out⟩ := h.kept_or_yielded held c
    · obtain ⟨l₁, d, l₂, rfl, owner, yields, out⟩ := ih (h.after c) live later (own ▸ moved)
      rw [own] at owner yields
      exact ⟨c :: l₁, d, l₂, rfl, owner, yields, out⟩
    · exact ⟨[], c, l, rfl, ⟨a, held, rfl⟩, yields, out⟩

theorem guards (h : r.Filed) : r.Guards where
  refuses e := by
    obtain ⟨old, live, foreign, refused⟩ | ⟨r', turn, own, -⟩ := r.register_cases e
    · exact ⟨fun _ => ⟨old, live, foreign⟩, fun _ => ⟨_, refused⟩⟩
    · rw [turn]
      constructor
      · rintro ⟨why, ⟨⟩⟩
      · rintro ⟨old, live, foreign⟩
        exact absurd (own old live) foreign
  refused e why refused := by rw [Registry.after, refused]; rfl
  publishes e r' turn := by
    obtain ⟨_, _, _, refused⟩ | ⟨_, accepted, -, done⟩ := r.register_cases e
    · rw [turn] at refused
      cases refused
    · obtain rfl := Except.ok.inj (turn.symm.trans accepted)
      exact done
  removes c k e := by
    obtain ⟨turn, foreign⟩ | ⟨old, r', turn, live, own, -, -⟩ := h.unregister_turn c k <;> rw [turn]
    · constructor
      · rintro ⟨⟩
      · rintro ⟨live, own⟩
        exact absurd own (foreign e live)
    · rw [live]
      exact ⟨fun same => ⟨same, Option.some.inj same ▸ own⟩, And.left⟩
  removed c k e := by
    obtain ⟨turn, -⟩ | ⟨old, r', turn, -, -, id, gone⟩ := h.unregister_turn c k <;> rw [turn]
    · rintro ⟨⟩
    · rintro ⟨⟩
      exact ⟨id, gone⟩
  spared c k := by
    obtain ⟨turn, -⟩ | ⟨old, r', turn, -⟩ := h.unregister_turn c k <;> rw [turn]
    · exact fun _ => rfl
    · rintro ⟨⟩
  owned c e := by
    rw [ofComponent, List.mem_filter, h.mem_values, decide_eq_true_eq]
  distinct c := h.nodup_ids.sublist (List.filter_sublist.map _)
  counted c := (h.withdrawn_unregisterComponent c).2
  withdrawn c := (h.withdrawn_unregisterComponent c).1
  left := h.get?_unregisterComponent
  givenUp _ _ _ l held later moved := h.givenUp held l later moved

end Filed

theorem guards_calls (l : List Call) : (l.foldl after .empty).Guards :=
  (Reachable.filed ⟨l, rfl⟩).guards

/-- `stock` as the warehouse publishes it and as the shop does. -/
def stockOf (owner : String) : Endpoint := ⟨⟨owner⟩, .bare "Stock", "main", [], .provider, []⟩

/-- The shop gets the id once the warehouse has withdrawn everything, not before. -/
def resale : List Call :=
  [.register (stockOf "shop"), .unregister ⟨"shop"⟩ (stockOf "shop").id,
    .unregisterComponent ⟨"warehouse"⟩, .register (stockOf "shop")]

theorem guards_calls_resale :
    ([Call.register (stockOf "warehouse")].foldl after .empty).get? (stockOf "shop").id =
        some (stockOf "warehouse") ∧
      (resale.foldl after ([Call.register (stockOf "warehouse")].foldl after .empty)).get?
        (stockOf "shop").id = some (stockOf "shop") ∧
      ([Call.register (stockOf "warehouse")].foldl after .empty).GivenUp ⟨"warehouse"⟩
        (stockOf "shop").id resale :=
  ⟨by decide, by decide,
    (guards_calls [.register (stockOf "warehouse")]).givenUp (stockOf "shop").id
      (stockOf "warehouse") (stockOf "shop") resale (by decide) (by decide) (by decide)⟩

end ServiceBus.Registry
