import Mathlib.Data.List.Rotate
import ServiceBus.Proofs.Bus.Selector

/-!
# Selection goes by rank

Candidates with ids of their own have one order, however they are listed (`sortBy_of_perm`). A
selector picks the one of a certain rank in it: the first, in turn, or as it is drawn. As long as the
cursor does not start again, as many selections in a row as there are candidates are the candidates in
order, from the cursor on (`picks_eq_rotate`), so each of them gets one. What is drawn can be any
candidate each time (`picks_random_iff`).
-/

namespace ServiceBus

/-! ### Orders in which only the same is equal -/

instance : Std.LawfulEqOrd QualifiedName where
  eq_of_compare {a b} h := by
    obtain ⟨space, localPart⟩ := Ordering.then_eq_eq.1 h
    cases a
    cases b
    cases Std.LawfulEqOrd.eq_of_compare space
    cases Std.LawfulEqOrd.eq_of_compare localPart
    rfl

instance : Std.LawfulEqOrd EndpointId where
  eq_of_compare {a b} h := by
    obtain ⟨service, endpoint⟩ := Ordering.then_eq_eq.1 h
    cases a
    cases b
    cases Std.LawfulEqOrd.eq_of_compare service
    cases Std.LawfulEqOrd.eq_of_compare endpoint
    rfl

section Sorting
variable {α β : Type} [Ord β] [Std.TransOrd β] [Std.LawfulEqOrd β] {key : α → β} {l l' : List α}

theorem pairwise_lt_sortBy (distinct : (l.map key).Nodup) :
    (sortBy key l).Pairwise fun a b => compare (key a) (key b) = .lt := by
  have distinct' : ((sortBy key l).map key).Nodup :=
    ((List.mergeSort_perm l _).map key).nodup_iff.2 distinct
  refine ((pairwise_sortBy key l).and (List.pairwise_map.1 distinct')).imp fun {a b} h => ?_
  obtain ⟨le, ne⟩ := h
  cases e : compare (key a) (key b) with
  | lt => rfl
  | eq => exact absurd (Std.LawfulEqOrd.eq_of_compare e) ne
  | gt => rw [e] at le; cases le

/-- With distinct keys the sorted list does not depend on the order in which its elements come. -/
theorem sortBy_of_perm (distinct : (l.map key).Nodup) (h : l'.Perm l) :
    sortBy key l' = sortBy key l := by
  have distinct' : (l'.map key).Nodup := (h.map key).nodup_iff.2 distinct
  refine List.Perm.eq_of_pairwise (fun a b _ _ hab hba => ?_) (pairwise_lt_sortBy distinct')
    (pairwise_lt_sortBy distinct) ?_
  · rw [Std.OrientedOrd.eq_swap, hba] at hab
    cases hab
  · exact (List.mergeSort_perm l' _).trans (h.trans (List.mergeSort_perm l _).symm)

end Sorting

/-- How many of the candidates come before an endpoint in the order of ids. -/
def rank (l : List Endpoint) (t : Endpoint) : Nat := l.countP fun c => (compare c.id t.id).isLT

section Ranks
variable {l l' : List Endpoint} {t : Endpoint} {i : Nat}

theorem rank_of_perm (h : l'.Perm l) (t : Endpoint) : rank l' t = rank l t := h.countP_eq _

theorem rank_getElem_sortBy (distinct : (l.map Endpoint.id).Nodup)
    (hi : i < (sortBy Endpoint.id l).length) : rank l (sortBy Endpoint.id l)[i] = i := by
  rw [← rank_of_perm (List.mergeSort_perm l _)]
  have increasing := List.pairwise_iff_getElem.1 (pairwise_lt_sortBy distinct)
  show rank (sortBy Endpoint.id l) _ = i
  generalize sortBy Endpoint.id l = s at hi increasing ⊢
  have before : (s.take i).countP (fun c => (compare c.id s[i].id).isLT) = i := by
    rw [List.countP_eq_length.2, List.length_take, Nat.min_eq_left hi.le]
    intro c hc
    obtain ⟨j, hj, rfl⟩ := List.getElem_of_mem hc
    rw [List.length_take] at hj
    rw [List.getElem_take, increasing j i _ hi (by omega)]
    rfl
  have behind : (s.drop i).countP (fun c => (compare c.id s[i].id).isLT) = 0 := by
    refine List.countP_eq_zero.2 fun c hc => ?_
    obtain ⟨j, hj, rfl⟩ := List.getElem_of_mem hc
    rw [List.length_drop] at hj
    rw [List.getElem_drop, Std.OrientedOrd.eq_swap]
    rcases Nat.eq_zero_or_pos j with rfl | hj'
    · simp
    · rw [increasing i (i + j) hi (by omega) (by omega)]
      simp
  have parts : rank s s[i] = (s.take i).countP (fun c => (compare c.id s[i].id).isLT) +
      (s.drop i).countP (fun c => (compare c.id s[i].id).isLT) := by
    rw [← List.countP_append, List.take_append_drop, rank]
  rw [parts, before, behind, Nat.add_zero]

/-- The sorted list has each candidate at its rank. -/
theorem getElem?_sortBy_eq_some_iff (distinct : (l.map Endpoint.id).Nodup) :
    (sortBy Endpoint.id l)[i]? = some t ↔ t ∈ l ∧ rank l t = i := by
  constructor
  · intro h
    obtain ⟨hi, rfl⟩ := List.getElem?_eq_some_iff.1 h
    exact ⟨mem_sortBy.1 (List.getElem_mem hi), rank_getElem_sortBy distinct hi⟩
  · rintro ⟨ht, rfl⟩
    have listed : t ∈ sortBy Endpoint.id l := mem_sortBy.2 ht
    obtain ⟨j, hj, rfl⟩ := List.getElem_of_mem listed
    rw [rank_getElem_sortBy distinct hj]
    exact List.getElem?_eq_getElem hj

theorem rank_lt (distinct : (l.map Endpoint.id).Nodup) (ht : t ∈ l) : rank l t < l.length := by
  have listed := (getElem?_sortBy_eq_some_iff distinct).2 ⟨ht, rfl⟩
  obtain ⟨below, -⟩ := List.getElem?_eq_some_iff.1 listed
  exact below.trans_eq (List.length_mergeSort l)

theorem rank_eq_zero_iff : rank l t = 0 ↔ ∀ c ∈ l, (compare t.id c.id).isLE := by
  rw [rank, List.countP_eq_zero]
  refine forall₂_congr fun c _ => ?_
  rw [Std.OrientedOrd.eq_swap]
  cases compare t.id c.id <;> simp

end Ranks

namespace Selector
variable {s : Selector} {l l' : List Endpoint} {t : Endpoint}

/-- Whatever the order in which they are listed, the pick is the candidate of a certain rank. -/
theorem select_eq_some_iff (s : Selector) (distinct : (l.map Endpoint.id).Nodup)
    (h : l'.Perm l) :
    (s.select l').2 = some t ↔ t ∈ l ∧ rank l t = s.position l.length := by
  rw [← getElem?_sortBy_eq_some_iff distinct, ← sortBy_of_perm distinct h, ← h.length_eq]
  unfold select
  split
  · next none =>
    rw [List.isEmpty_iff.1 none]
    simp [sortBy]
  · rfl

/-! ### One selection after another -/

/-- What a selector picks from one list after another. -/
def picks (s : Selector) : List (List Endpoint) → List (Option Endpoint)
  | [] => []
  | l :: ls => (s.select l).2 :: (s.select l).1.picks ls

theorem select_random (cursor : Nat) (draws : Nat → Nat) (ne : l ≠ []) :
    select ⟨.random, cursor, draws⟩ l = (⟨.random, cursor, fun k => draws (k + 1)⟩,
      (sortBy Endpoint.id l)[draws 0 % l.length]?) :=
  if_neg (by simpa using ne)

/-- What can be drawn one after another is any candidate each time. -/
theorem picks_random_iff {cursor : Nat} {turns : List (List Endpoint)} {chosen : List Endpoint} :
    (∃ draws, picks ⟨.random, cursor, draws⟩ turns = chosen.map some) ↔
      List.Forall₂ (· ∈ ·) chosen turns := by
  induction turns generalizing chosen with
  | nil => simp [picks]
  | cons l turns ih =>
    cases chosen with
    | nil => simp [picks]
    | cons t chosen =>
      rw [List.forall₂_cons, ← ih]
      constructor
      · rintro ⟨draws, picked⟩
        obtain ⟨first, rest⟩ := List.cons_eq_cons.1 picked
        have ne : l ≠ [] := by
          rintro rfl
          cases first
        rw [select_random cursor draws ne] at first rest
        exact ⟨mem_sortBy.1 (List.mem_of_getElem? first), _, rest⟩
      · rintro ⟨mem, draws, rest⟩
        have listed : t ∈ sortBy Endpoint.id l := mem_sortBy.2 mem
        obtain ⟨i, hi, rfl⟩ := List.getElem_of_mem listed
        have lt : i < l.length := hi.trans_eq (List.length_mergeSort l)
        refine ⟨fun k => Nat.casesOn k i draws, ?_⟩
        rw [picks, select_random _ _ (List.ne_nil_of_mem mem)]
        refine List.cons_eq_cons.2 ⟨?_, rest⟩
        show (sortBy Endpoint.id l)[i % l.length]? = _
        rw [Nat.mod_eq_of_lt lt, List.getElem?_eq_getElem hi]

theorem select_of_perm (distinct : (l.map Endpoint.id).Nodup) (h : l'.Perm l) (ne : l ≠ []) :
    s.select l' = (s.advance, (sortBy Endpoint.id l)[s.position l.length]?) := by
  have ne' : l' ≠ [] := fun e => ne (List.nil_perm.1 (e ▸ h))
  rw [select, if_neg (by simpa using ne'), sortBy_of_perm distinct h, h.length_eq]

/-- Rotation goes through the candidates in order, from the cursor on. -/
theorem picks_eq_map_range (rotates : s.strategy = .roundRobin) (within : s.cursor < period)
    (distinct : (l.map Endpoint.id).Nodup) (ne : l ≠ []) (turns : List (List Endpoint))
    (same : ∀ l' ∈ turns, l'.Perm l) :
    s.picks turns = (List.range turns.length).map fun k =>
      (sortBy Endpoint.id l)[(s.cursor + k) % period % l.length]? := by
  induction turns generalizing s with
  | nil => rfl
  | cons l' turns ih =>
    have advanced : s.advance = { s with cursor := (s.cursor + 1) % period } := by
      rw [advance, rotates]
    have position : s.position l.length = s.cursor % l.length := by
      rw [Selector.position, rotates]
    have rest := ih (s := { s with cursor := (s.cursor + 1) % period }) rotates
      (Nat.mod_lt _ (by decide : 0 < period)) fun l'' h => same l'' (.tail _ h)
    rw [picks, select_of_perm distinct (same l' List.mem_cons_self) ne, advanced, position, rest,
      List.length_cons, List.range_succ_eq_map, List.map_cons, List.map_map]
    refine List.cons_eq_cons.2 ⟨?_, List.map_congr_left fun k _ => ?_⟩
    · show _ = (sortBy Endpoint.id l)[s.cursor % period % l.length]?
      rw [Nat.mod_eq_of_lt within]
    · show (sortBy Endpoint.id l)[((s.cursor + 1) % period + k) % period % l.length]? =
        (sortBy Endpoint.id l)[(s.cursor + (k + 1)) % period % l.length]?
      rw [Nat.mod_add_mod, Nat.add_assoc, Nat.add_comm 1 k]

theorem picks_eq_rotate (rotates : s.strategy = .roundRobin)
    (within : s.cursor + l.length ≤ period) (distinct : (l.map Endpoint.id).Nodup)
    {turns : List (List Endpoint)} (length : turns.length = l.length)
    (same : ∀ l' ∈ turns, l'.Perm l) :
    s.picks turns = ((sortBy Endpoint.id l).rotate s.cursor).map some := by
  rcases eq_or_ne l [] with rfl | ne
  · rw [List.length_eq_zero_iff.1 length]
    simp [picks, sortBy]
  have positive : 0 < l.length := List.length_pos_iff.2 ne
  have sorted : (sortBy Endpoint.id l).length = l.length := List.length_mergeSort l
  rw [picks_eq_map_range rotates (by omega) distinct ne turns same, length]
  refine List.ext_getElem (by simp [sorted]) fun k hk _ => ?_
  rw [List.length_map, List.length_range] at hk
  have lt : (s.cursor + k) % l.length < (sortBy Endpoint.id l).length :=
    Nat.lt_of_lt_of_eq (Nat.mod_lt _ positive) sorted.symm
  simp only [List.getElem_map, List.getElem_range, List.getElem_rotate, sorted]
  rw [Nat.mod_eq_of_lt (by omega : s.cursor + k < period), List.getElem?_eq_getElem lt]
  simp only [Nat.add_comm k]

/-- Selection by the strategies `first` and `roundRobin`, for candidates with ids of their own that
come in any order: the one of least id, the one whose rank the cursor says, and, in as many
selections in a row as there are candidates, each candidate once. -/
theorem select_by_rank (s : Selector) (distinct : (l.map Endpoint.id).Nodup) :
    (l ≠ [] → ∀ l', l'.Perm l → ∃ t, (s.select l').2 = some t) ∧
    (s.strategy = .first → ∀ l', l'.Perm l → ∀ t, (s.select l').2 = some t ↔
      t ∈ l ∧ ∀ c ∈ l, (compare t.id c.id).isLE) ∧
    (s.strategy = .roundRobin → ∀ l', l'.Perm l → ∀ t, (s.select l').2 = some t ↔
      t ∈ l ∧ rank l t = s.cursor % l.length) ∧
    (s.strategy = .roundRobin → s.cursor + l.length ≤ period → ∀ turns : List (List Endpoint),
      turns.length = l.length → (∀ l' ∈ turns, l'.Perm l) →
      ∃ chosen : List Endpoint, s.picks turns = chosen.map some ∧ chosen.Perm l) := by
  refine ⟨fun ne l' h => ?_, fun first l' h t => ?_, fun rotates l' h t => ?_,
    fun rotates within turns length same => ?_⟩
  · obtain ⟨t, -, picked, -⟩ := s.select_of_ne_nil (l := l') fun e => ne (List.nil_perm.1 (e ▸ h))
    exact ⟨t, congrArg Prod.snd picked⟩
  · rw [s.select_eq_some_iff distinct h, position, first, rank_eq_zero_iff]
  · rw [s.select_eq_some_iff distinct h, position, rotates]
  · exact ⟨_, picks_eq_rotate rotates within distinct length same,
      (List.rotate_perm _ _).trans (List.mergeSort_perm l _)⟩

/-- An endpoint of one service. -/
def offer (name : String) : Endpoint :=
  ⟨⟨"c1"⟩, ⟨"urn:test", "Svc"⟩, name, [], .provider, []⟩

/-- Three offers, not in order. -/
def offers : List Endpoint := [offer "b", offer "a", offer "c"]

theorem select_by_rank_offers :
    (offers.map Endpoint.id).Nodup ∧
    ((new .first id).select offers.reverse).2 = some (offer "a") ∧
    ((⟨.roundRobin, 4, id⟩ : Selector).select offers.reverse).2 = some (offer "b") ∧
    ∃ chosen : List Endpoint, (⟨.roundRobin, 4, id⟩ : Selector).picks
      [offers, offers.reverse, offers] = chosen.map some ∧ chosen.Perm offers := by
  have distinct : (offers.map Endpoint.id).Nodup := by decide
  have reverse : offers.reverse.Perm offers := List.reverse_perm offers
  refine ⟨distinct, ?_, ?_, ?_⟩
  · exact ((select_by_rank (new .first id) distinct).2.1 rfl _ reverse _).2 (by decide)
  · exact ((select_by_rank ⟨.roundRobin, 4, id⟩ distinct).2.2.1 rfl _ reverse _).2 (by decide)
  · exact (select_by_rank ⟨.roundRobin, 4, id⟩ distinct).2.2.2 rfl (by decide) _ rfl
      (by simp [reverse])

end Selector
end ServiceBus
