import ServiceBus.Bus.Selector

/-!
# Which candidate a selector picks

A selector picks one of its candidates whenever there is one, and by the strategy `first` the one of
least id. Ids are ordered by comparing part after part, and that order is transitive.
-/

namespace ServiceBus

instance : Std.TransOrd QualifiedName :=
  inferInstanceAs (Std.TransCmp (compareLex (compareOn QualifiedName.space)
    (compareOn QualifiedName.localPart)))

instance : Std.TransOrd EndpointId :=
  inferInstanceAs (Std.TransCmp (compareLex (compareOn EndpointId.service)
    (compareOn EndpointId.endpoint)))

theorem pairwise_sortBy {α β : Type} [Ord β] [Std.TransOrd β] (key : α → β) (l : List α) :
    (sortBy key l).Pairwise fun a b => (compare (key a) (key b)).isLE = true := by
  refine List.pairwise_mergeSort (fun a b c => Std.TransCmp.isLE_trans) (fun a b => ?_) l
  rw [Std.OrientedOrd.eq_swap]
  cases compare (key b) (key a) <;> rfl

theorem mem_sortBy {α β : Type} [Ord β] {key : α → β} {l : List α} {a : α} :
    a ∈ sortBy key l ↔ a ∈ l :=
  List.mem_mergeSort

namespace Selector
variable {s : Selector} {l : List Endpoint} {t : Endpoint}

theorem position_lt (s : Selector) {n : Nat} (h : 0 < n) : s.position n < n := by
  unfold position
  split
  · exact h
  · exact Nat.mod_lt _ h
  · exact Nat.mod_lt _ h

theorem select_of_ne_nil (s : Selector) (h : l ≠ []) :
    ∃ t ∈ l, s.select l = (s.advance, some t) ∧
      (s.strategy = .first → ∀ c ∈ l, (compare t.id c.id).isLE) := by
  have hlen : (sortBy Endpoint.id l).length = l.length := List.length_mergeSort l
  have hpos := s.position_lt (List.length_pos_iff.2 h)
  have hlt : s.position l.length < (sortBy Endpoint.id l).length := by omega
  refine ⟨(sortBy Endpoint.id l)[s.position l.length], mem_sortBy.1 (List.getElem_mem _), ?_, ?_⟩
  · unfold select
    rw [if_neg (by simpa using h), List.getElem?_eq_getElem hlt]
  · intro hs c hc
    have hzero : s.position l.length = 0 := by rw [position, hs]
    have hc : c ∈ sortBy Endpoint.id l := mem_sortBy.2 hc
    obtain ⟨i, hi, rfl⟩ := List.getElem_of_mem hc
    simp only [hzero]
    rcases Nat.eq_zero_or_pos i with rfl | hip
    · exact Std.ReflCmp.isLE_rfl
    · exact List.pairwise_iff_getElem.1 (pairwise_sortBy Endpoint.id l) 0 i _ hi hip

end Selector

end ServiceBus
