import ServiceBus.Proofs.Bus.Connections
import ServiceBus.Proofs.Bus.Rotation
import ServiceBus.Proofs.Bus.Unready

/-!
# What moves the selector

Only the first turn of a send has the selector pick, and only if nobody is named and there is a
candidate (`picked?`). It then moves on by one, whatever comes of the send (`Step.selector_of_pick`).
-/

namespace ServiceBus

/-- What stands for several endpoints: a service, an interface or a service with an interface. -/
abbrev Address : Type := Option QualifiedName × Option QualifiedName

def Exchange.address (e : Exchange) : Address := (e.service, e.interface)

namespace Selector
variable {s : Selector} {l : List Endpoint} {t : Endpoint}

theorem select_of_none (h : (s.select l).2 = none) : s.select l = (s, none) := by
  rcases eq_or_ne l [] with rfl | ne
  · rfl
  · obtain ⟨t, -, picked, -⟩ := s.select_of_ne_nil ne
    rw [picked] at h
    cases h

theorem select_of_some (h : (s.select l).2 = some t) : s.select l = (s.advance, some t) ∧ t ∈ l := by
  rcases eq_or_ne l [] with rfl | ne
  · cases h
  · obtain ⟨t', mem, picked, -⟩ := s.select_of_ne_nil ne
    rw [picked] at h ⊢
    obtain rfl := Option.some.inj h
    exact ⟨rfl, mem⟩

end Selector

namespace Bus
variable {b : Bus} {x : Nat} {t : Endpoint}

/-! ### The pick of a send -/

/-- The routable endpoints of an address. -/
def offered (b : Bus) (a : Address) : List Endpoint := (b.addressed a.1 a.2).filter b.isRoutable

theorem routes_of_unnamed {e : Exchange} (unnamed : e.target = none) :
    b.routes e = b.offered e.address := by
  rw [routes, candidates, unnamed]
  rfl

theorem choose_of_unnamed {e : Exchange} (unnamed : e.target = none) :
    b.choose e = b.selector.select (b.offered e.address) := by
  rw [← routes_of_unnamed unnamed, choose, unnamed, routes]

/-- The endpoint that a send of `x` has the selector pick, if it comes to that. -/
def picked? (b : Bus) (x : Nat) : Option Endpoint :=
  let e := b.exchange x
  if e.status = .active ∧ e.owner = .consumer ∧ b.closing = false ∧ e.target = none then
    (b.selector.select (b.offered e.address)).2
  else none

theorem picked?_eq_some_iff : b.picked? x = some t ↔
    (b.exchange x).status = .active ∧ (b.exchange x).owner = .consumer ∧ b.closing = false ∧
      (b.exchange x).target = none ∧
      (b.selector.select (b.offered (b.exchange x).address)).2 = some t := by
  rw [picked?]
  split
  · next h => simp [h]
  · next h =>
    constructor
    · nofun
    · rintro ⟨active, owner, accepting, unnamed, -⟩
      exact absurd ⟨active, owner, accepting, unnamed⟩ h

/-- The pick is dispatched, and the selector has moved on. -/
theorem send_of_picked (h : b.picked? x = some t) : ∃ d, b.components.get? t.component = some d ∧
    b.send x = { b with selector := b.selector.advance }.dispatch x t d := by
  obtain ⟨active, owner, accepting, unnamed, picked⟩ := picked?_eq_some_iff.1 h
  obtain ⟨selected, mem⟩ := Selector.select_of_some picked
  obtain ⟨d, connected⟩ := exists_delivery (routes_of_unnamed unnamed ▸ mem)
  have resolved : b.resolveTarget x = ({ b with selector := b.selector.advance }, .ok t) := by
    simp only [resolveTarget, choose_of_unnamed unnamed, selected]
  refine ⟨d, connected, ?_⟩
  unfold send
  dsimp only
  rw [if_neg (by simp [active]), if_neg (by simp [owner]), if_neg (by simp [accepting]), resolved]
  dsimp only
  rw [connected]

/-- A send that the exchange does not refuse takes it to the pick. -/
theorem target_of_picked (hx : x < b.exchanges.size) (h : b.picked? x = some t)
    (accepted : ∀ r, (b.send x).2 ≠ .ended (.error (.exchange r))) :
    ((b.send x).1.exchange x).target = some t := by
  obtain ⟨d, -, sent⟩ := send_of_picked h
  rw [sent] at accepted ⊢
  generalize hb : { b with selector := b.selector.advance } = b₀ at accepted ⊢
  have hx₀ : x < b₀.exchanges.size := hb ▸ hx
  unfold dispatch at accepted ⊢
  obtain ⟨r, refused⟩ | ⟨b', done, moved⟩ := change_result hx₀ (.dispatch t)
  · rw [refused] at accepted
    exact absurd rfl (accepted r)
  · rw [done]
    obtain ⟨y, moves, exchange⟩ := moved.moves
    have underway := Exchange.Underway.of_dispatch moves
    rw [← exchange] at underway
    have hx' : x < b'.exchanges.size := Nat.lt_of_lt_of_le hx₀ moved.size_le
    have evolves : Evolves b' (if b'.persists x then
        (b'.persist x).1.persisted x t d (b'.persist x).2 else b'.deliver x t d).1 := by
      split
      · exact (Calls.persist b' x).evolves.trans (.persisted _ x t d _)
      · exact .deliver b' x t d
    exact (underway.leads (evolves.leads x hx')).target_eq

/-- After a send the selector has moved on by one if it has picked. -/
theorem selectorAfter_send (b : Bus) (x : Nat) : b.selectorAfter (.ask (.send x)) =
    if (b.picked? x).isSome then b.selector.advance else b.selector := by
  by_cases seeks : b.Seeks x
  · have after : b.selectorAfter (.ask (.send x)) = (b.choose (b.exchange x)).1 := if_pos seeks
    obtain ⟨active, owner, accepting⟩ := seeks
    cases target : (b.exchange x).target with
    | some t =>
      have none : b.picked? x = none := if_neg (by simp [target])
      rw [after, none, choose, target]
      rfl
    | none =>
      have pick : b.picked? x = (b.selector.select (b.offered (b.exchange x).address)).2 :=
        if_pos ⟨active, owner, accepting, target⟩
      rw [after, pick, choose_of_unnamed target]
      cases picked : (b.selector.select (b.offered (b.exchange x).address)).2 with
      | some t => exact congrArg Prod.fst (Selector.select_of_some picked).1
      | none => exact congrArg Prod.fst (Selector.select_of_none picked)
  · have after : b.selectorAfter (.ask (.send x)) = b.selector := if_neg seeks
    have none : b.picked? x = none :=
      if_neg fun pick => seeks ⟨pick.1, pick.2.1, pick.2.2.1⟩
    rw [after, none]
    rfl

end Bus

/-! ### Steps -/

/-- The exchange for which the selector picks in a step, and its pick. -/
def Transition.pick? (t : Transition) : Option (Nat × Endpoint) :=
  match t.deed with
  | .ask (.send x) => (t.before.bus.picked? x).map fun e => (x, e)
  | _ => none

namespace Traffic
variable {s s' : Traffic} {d : Deed}
open Bus

/-- Each pick moves the selector on by one, and nothing else moves it. -/
theorem Step.selector_of_pick (h : s.Step d s') : s'.bus.selector =
    if (Transition.pick? ⟨s, d, s'⟩).isSome then s.bus.selector.advance else s.bus.selector := by
  rw [h.selector_eq]
  unfold Transition.pick?
  dsimp only
  split
  · rw [Option.isSome_map]
    exact selectorAfter_send s.bus _
  · next other =>
    unfold selectorAfter
    split
    · exact absurd rfl (other _)
    · rfl

end Traffic
end ServiceBus
