import Mathlib.Algebra.GroupWithZero.Nat
import ServiceBus.Proofs.Bus.Courses
import ServiceBus.Proofs.Bus.Processed

/-!
# An exchange is handed over once in a whole network

Several buses may send the same exchange, from any number of calls, with components and endpoints
coming and going in between. At most one processor ever begins on it, or one queue gets it
(`Network.handed_over_once`): a hop is what is spent for a delivery, and nobody but who takes the
first one has a delivery due (`Transition.Leg.due_le`).
-/

namespace ServiceBus

/-- Buses that share their exchanges. -/
structure Network where
  exchanges : Array Exchange
  /-- The buses; what they hold of exchanges themselves does not count. -/
  sites : List Traffic

def Traffic.seeing (s : Traffic) (es : Array Exchange) : Traffic :=
  { s with bus := { s.bus with exchanges := es } }

namespace Network
variable {n n₀ : Network} {k x : Nat}

/-- What steps of its buses can make of a network, with anything happening elsewhere between them,
and how often `x` is handed over on the way. -/
inductive Runs (x : Nat) (n₀ : Network) : Nat → Network → Prop
  | refl : Runs x n₀ 0 n₀
  | step {k : Nat} {n : Network} {before after : List Traffic} {s s' : Traffic} {d : Deed}
    (run : Runs x n₀ k n) (site : n.sites = before ++ s :: after)
    (step : (s.seeing n.exchanges).Step d s') :
    Runs x n₀ (k + Transition.deliveries ⟨s.seeing n.exchanges, d, s'⟩ x)
      ⟨s'.bus.exchanges, before ++ s' :: after⟩
  | elsewhere {k : Nat} {n : Network} {before after : List Traffic} {s : Traffic} {b : Bus}
    (run : Runs x n₀ k n) (site : n.sites = before ++ s :: after)
    (elsewhere : (s.seeing n.exchanges).bus.Elsewhere b) :
    Runs x n₀ k ⟨b.exchanges, before ++ { s with bus := b } :: after⟩

/-- Every bus works on what has been dispatched, and no more deliveries of `x` are due in all than
its first hop is good for. -/
structure Thrifty (n : Network) (x k : Nat) : Prop where
  ordered : ∀ s ∈ n.sites, (s.seeing n.exchanges).bus.Orderly s.jobs
  due_le : (n.sites.map (·.due x)).sum + k ≤ min (n.exchanges[x]?.getD default).hops 1

theorem Thrifty.change {before after : List Traffic} {s s' : Traffic} {es : Array Exchange} {i : Nat}
    (h : n.Thrifty x k) (site : n.sites = before ++ s :: after)
    (evolves : Bus.Evolves (s.seeing n.exchanges).bus (s'.seeing es).bus)
    (ordered : (s'.seeing es).bus.Orderly s'.jobs)
    (due : s'.due x + i + min (n.exchanges[x]?.getD default).hops 1 ≤
      s.due x + min (es[x]?.getD default).hops 1) :
    Thrifty ⟨es, before ++ s' :: after⟩ x (k + i) where
  ordered u hu := by
    -- a site that has not moved has the jobs it had, and the exchanges have only evolved
    have old (hu : u ∈ n.sites) : (u.seeing es).bus.Orderly u.jobs :=
      (h.ordered u hu).mono (fun _ hj => .inl hj) (fun _ hl => hl)
        ⟨evolves.size_le, evolves.leads⟩
    rw [site] at old
    simp only [List.mem_append, List.mem_cons] at hu old
    rcases hu with hu | rfl | hu
    · exact old (.inl hu)
    · exact ordered
    · exact old (.inr (.inr hu))
  due_le := by
    have le := h.due_le
    rw [site] at le
    simp only [List.map_append, List.map_cons, List.sum_append, List.sum_cons] at le ⊢
    omega

theorem Runs.thrifty (fresh : ∀ s ∈ n₀.sites, s.Fresh) (h : n₀.Runs x k n) : n.Thrifty x k := by
  induction h with
  | refl =>
    constructor
    · intro s hs y hy
      simp [(fresh s hs).no_jobs, Bus.duties, Traffic.seeing, (fresh s hs).no_launches] at hy
    · have none : (n₀.sites.map (·.due x)).sum = 0 := by
        refine List.sum_eq_zero_iff_forall_eq_nat.2 fun i hi => ?_
        obtain ⟨s, hs, rfl⟩ := List.mem_map.1 hi
        simp [Traffic.due, (fresh s hs).no_jobs, (fresh s hs).no_launches]
      rw [none]
      exact Nat.zero_le _
  | @step k n before after s s' d run site step ih =>
    have ordered := ih.ordered s (site ▸ List.mem_append_right _ List.mem_cons_self)
    exact ih.change site step.evolves (step.event.orderly ordered)
      ((step.leg ordered x).due_le step.evolves)
  | @elsewhere k n before after s b run site elsewhere ih =>
    have ordered := ih.ordered s (site ▸ List.mem_append_right _ List.mem_cons_self)
    have hops : (n.exchanges[x]?.getD default).hops ≤ (b.exchanges[x]?.getD default).hops :=
      elsewhere.toEvolves.hops_le x
    refine ih.change (i := 0) site elsewhere.toEvolves (elsewhere.orderly ordered) ?_
    have due : Traffic.due { s with bus := b } x = s.due x :=
      Traffic.due_elsewhere (s.seeing n.exchanges) elsewhere x
    rw [due]
    omega

/-- Whatever is sent, on whichever buses and in whatever order, an exchange is handed over to one
processor or one queue at most. -/
theorem handed_over_once (fresh : ∀ s ∈ n₀.sites, s.Fresh) (run : n₀.Runs x k n) : k ≤ 1 := by
  have due := (run.thrifty fresh).due_le
  omega

/-- Two buses with the same processor, and a request. -/
def twins : Network := ⟨Bus.servedBus.exchanges, [Traffic.served, Traffic.served]⟩

theorem runs_twins : ∃ n, twins.Runs 0 1 n := by
  have start : twins.Runs 0 0 twins := .refl
  have sent := start.step (List.nil_append _).symm (.ask (r := .send 0) Nat.one_pos)
  have tracked := sent.step (List.nil_append _).symm
    (@Traffic.Step.take _ (.tracker 0 false) [] [.processor 1 0 0 true] rfl)
  have begun := tracked.step (List.nil_append _).symm
    (@Traffic.Step.take _ (.processor 1 0 0 true) [] [] rfl)
  have again := begun.step (List.singleton_append).symm (.ask (r := .send 0) Nat.one_pos)
  exact ⟨_, again⟩

theorem handed_over_once_twins : (∀ s ∈ twins.sites, s.Fresh) ∧ (∃ n, twins.Runs 0 1 n) ∧ 1 ≤ 1 := by
  have fresh : ∀ s ∈ twins.sites, s.Fresh := by
    intro s hs
    obtain rfl : s = Traffic.served := by simpa [twins] using hs
    exact ⟨rfl, rfl, rfl, rfl⟩
  obtain ⟨n, run⟩ := runs_twins
  exact ⟨fresh, ⟨n, run⟩, handed_over_once fresh run⟩

end Network
end ServiceBus
