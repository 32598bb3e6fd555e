import Mathlib.Tactic.Tauto
import ServiceBus.Registry.Basic

/-!
# What an index lists

`x.Lists p`: under each name `n` the index `x` holds exactly the ids `k` with `p n k`, each once,
and it has no entry for a name without ids. Filing an id adds to the relation, taking one out
subtracts from it, so what an index holds after any number of both is read off the relation.
-/

namespace ServiceBus.Index
variable {x : Index} {n m : QualifiedName} {k j : EndpointId}
  {p q : QualifiedName → EndpointId → Prop}

structure Lists (x : Index) (p : QualifiedName → EndpointId → Prop) : Prop where
  mem_iff : ∀ n k, k ∈ x.ids n ↔ p n k
  nodup : ∀ n, (x.ids n).Nodup
  pruned : ∀ n, x.get? n ≠ some []

theorem ids_insert (x : Index) (n m : QualifiedName) (l : List EndpointId) :
    ids (Table.insert x n l) m = if m = n then l else x.ids m := by
  unfold ids
  rw [Table.get?_insert]
  split <;> rfl

theorem ids_erase (x : Index) (n m : QualifiedName) :
    ids (Table.erase x n) m = if m = n then [] else x.ids m := by
  unfold ids
  rw [Table.get?_erase]
  split <;> rfl

theorem ids_add (x : Index) (n m : QualifiedName) (k : EndpointId) :
    (x.add n k).ids m =
      if m = n then (if k ∈ x.ids n then x.ids n else x.ids n ++ [k]) else x.ids m :=
  ids_insert x n m _

theorem ids_remove (x : Index) (n m : QualifiedName) (k : EndpointId) :
    (x.remove n k).ids m = if m = n then (x.ids n).filter (· ≠ k) else x.ids m := by
  unfold remove
  cases h : x.get? n with
  | none =>
    have hn : x.ids n = [] := by simp [ids, h]
    by_cases hm : m = n
    · simp [hm, hn]
    · simp [hm]
  | some old =>
    have hn : x.ids n = old := by simp [ids, h]
    dsimp only
    split
    · next hf => rw [ids_erase, hn, hf]
    · rw [ids_insert, hn]

namespace Lists

theorem empty : Lists .empty fun _ _ => False where
  mem_iff n k := by simp [ids]
  nodup n := by simp [ids]
  pruned n h := by cases h

theorem congr (h : x.Lists p) (hp : ∀ n k, p n k ↔ q n k) : x.Lists q :=
  { h with mem_iff := fun n k => (h.mem_iff n k).trans (hp n k) }

theorem add (h : x.Lists p) (n : QualifiedName) (k : EndpointId) :
    (x.add n k).Lists fun m j => (m = n ∧ j = k) ∨ p m j where
  mem_iff m j := by
    rw [ids_add]
    by_cases hm : m = n
    · subst hm
      rw [if_pos rfl, ← h.mem_iff]
      split
      · next hk => exact ⟨.inr, fun | .inl ⟨_, hj⟩ => hj ▸ hk | .inr hj => hj⟩
      · simp [or_comm]
    · simp [hm, h.mem_iff]
  nodup m := by
    rw [ids_add]
    by_cases hm : m = n
    · subst hm
      rw [if_pos rfl]
      split
      · exact h.nodup m
      · next hk =>
        refine List.nodup_append.2 ⟨h.nodup m, by simp, ?_⟩
        intro a ha b hb hab
        rw [List.mem_singleton.1 hb] at hab
        exact hk (hab ▸ ha)
    · rw [if_neg hm]
      exact h.nodup m
  pruned m := by
    unfold Index.add
    rw [Table.get?_insert]
    split
    · split
      · next hk => intro e; rw [Option.some.inj e] at hk; cases hk
      · simp
    · exact h.pruned m

theorem remove (h : x.Lists p) (n : QualifiedName) (k : EndpointId) :
    (x.remove n k).Lists fun m j => p m j ∧ ¬ (m = n ∧ j = k) where
  mem_iff m j := by
    rw [ids_remove]
    by_cases hm : m = n
    · subst hm
      simp [h.mem_iff]
    · simp [hm, h.mem_iff]
  nodup m := by
    rw [ids_remove]
    split
    · exact (h.nodup n).filter _
    · exact h.nodup m
  pruned m := by
    unfold Index.remove
    split
    · exact h.pruned m
    · split
      · rw [Table.get?_erase]
        split
        · simp
        · exact h.pruned m
      · next rest hr _ =>
        rw [Table.get?_insert]
        split
        · simp_all
        · exact h.pruned m

theorem addAll (h : x.Lists p) (ns : List QualifiedName) (k : EndpointId) :
    (ns.foldl (fun x n => x.add n k) x).Lists fun m j => (m ∈ ns ∧ j = k) ∨ p m j := by
  induction ns generalizing x p with
  | nil => simpa using h
  | cons n ns ih => exact (ih (h.add n k)).congr fun m j => by simp only [List.mem_cons]; tauto

theorem removeAll (h : x.Lists p) (ns : List QualifiedName) (k : EndpointId) :
    (ns.foldl (fun x n => x.remove n k) x).Lists fun m j => p m j ∧ ¬ (m ∈ ns ∧ j = k) := by
  induction ns generalizing x p with
  | nil => simpa using h
  | cons n ns ih => exact (ih (h.remove n k)).congr fun m j => by simp only [List.mem_cons]; tauto

end Lists

end ServiceBus.Index
