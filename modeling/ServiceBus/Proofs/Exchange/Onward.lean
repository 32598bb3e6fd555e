import ServiceBus.Proofs.Exchange.Moves

/-!
# Exchanges only go on

`Onward x y` says how far `y` can be from an earlier state `x` of the same exchange: what was decided
when it was made is still the same, it has not come back a step, and what has ended has not changed
at all. Every change goes onward (`Onward.change`), from any state, sound or not.
-/

namespace ServiceBus.Exchange
variable {x y z : Exchange} {c : Change}

/-- `y` is `x` at a later time, or at the same. -/
structure Onward (x y : Exchange) : Prop where
  id_eq : y.id = x.id
  pattern_eq : y.pattern = x.pattern
  synchronous_eq : y.synchronous = x.synchronous
  persistent_eq : y.persistent = x.persistent
  hops_le : x.hops ≤ y.hops
  output_kept : ∀ m, x.output = some m → y.output = some m
  fault_kept : ∀ f, x.fault = some f → y.fault = some f
  /-- What has been sent keeps its request and its provider. -/
  input_kept : 0 < x.hops → y.input = x.input
  target_kept : 0 < x.hops → y.target = x.target
  ended_kept : x.status ≠ .active → y = x

namespace Onward

theorem refl (x : Exchange) : Onward x x where
  id_eq := rfl
  pattern_eq := rfl
  synchronous_eq := rfl
  persistent_eq := rfl
  hops_le := Nat.le_refl _
  output_kept _ h := h
  fault_kept _ h := h
  input_kept _ := rfl
  target_kept _ := rfl
  ended_kept _ := rfl

theorem trans (h : Onward x y) (k : Onward y z) : Onward x z where
  id_eq := k.id_eq.trans h.id_eq
  pattern_eq := k.pattern_eq.trans h.pattern_eq
  synchronous_eq := k.synchronous_eq.trans h.synchronous_eq
  persistent_eq := k.persistent_eq.trans h.persistent_eq
  hops_le := Nat.le_trans h.hops_le k.hops_le
  output_kept m hm := k.output_kept m (h.output_kept m hm)
  fault_kept f hf := k.fault_kept f (h.fault_kept f hf)
  input_kept hx := (k.input_kept (Nat.lt_of_lt_of_le hx h.hops_le)).trans (h.input_kept hx)
  target_kept hx := (k.target_kept (Nat.lt_of_lt_of_le hx h.hops_le)).trans (h.target_kept hx)
  ended_kept hx := by
    obtain rfl := h.ended_kept hx
    exact k.ended_kept hx

theorem hasReply (h : Onward x y) (hx : x.hasReply = true) : y.hasReply = true := by
  simp only [Exchange.hasReply, Bool.or_eq_true, Option.isSome_iff_exists] at hx ⊢
  rcases hx with ⟨m, hm⟩ | ⟨f, hf⟩
  · exact .inl ⟨m, h.output_kept m hm⟩
  · exact .inr ⟨f, h.fault_kept f hf⟩

theorem moves (ha : x.status = .active) (hm : Moves x c y) : Onward x y.publish := by
  have hended : x.status ≠ .active → y.publish = x := fun h => absurd ha h
  have base := refl x
  cases hm with
  | setProperty name v => exact { base with ended_kept := hended }
  | setIn m owner hops =>
    exact { base with ended_kept := hended, input_kept := fun h => absurd hops (Nat.ne_of_gt h) }
  | setOut m pattern owner reply =>
    have ho : x.output = none := by
      cases h : x.output with
      | none => rfl
      | some _ => simp [Exchange.hasReply, h] at reply
    exact { base with ended_kept := hended, output_kept := fun n h => by rw [ho] at h; cases h }
  | setFault f pattern owner reply =>
    have hf : x.fault = none := by
      cases h : x.fault with
      | none => rfl
      | some _ => simp [Exchange.hasReply, h] at reply
    exact { base with ended_kept := hended, fault_kept := fun g h => by rw [hf] at h; cases h }
  | done satisfied => exact { base with ended_kept := hended }
  | fail cause => exact { base with ended_kept := hended }
  | dispatch t owner hops input =>
    exact { base with
      hops_le := Nat.le_trans (Nat.le_of_eq hops) (Nat.zero_le 1)
      target_kept := fun h => absurd hops (Nat.ne_of_gt h)
      ended_kept := hended }
  | handBack owner hops reply =>
    exact { base with
      hops_le := Nat.le_trans (Nat.le_of_eq hops) (Nat.le_succ 1)
      ended_kept := hended }

/-- Whatever is attempted, an exchange goes onward. -/
theorem change (x : Exchange) (c : Change) : Onward x (x.change c).1 := by
  rcases change_fst_cases x c with e | ⟨ha, y, hy, e⟩
  · rw [e]; exact refl x
  · rw [e]; exact moves ha hy

end Onward

/-- `y` is what any number of attempts, refused or not, have made of `x`. -/
inductive Leads (x : Exchange) : Exchange → Prop
  | refl : Leads x x
  | change {y : Exchange} (h : Leads x y) (c : Change) : Leads x (y.change c).1

namespace Leads

theorem trans (h : Leads x y) (k : Leads y z) : Leads x z := by
  induction k with
  | refl => exact h
  | change _ c ih => exact ih.change c

theorem onward (h : Leads x y) : Onward x y := by
  induction h with
  | refl => exact .refl x
  | change _ c ih => exact ih.trans (.change _ c)

end Leads

end ServiceBus.Exchange
