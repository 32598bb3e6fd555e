import Mathlib.Logic.Function.Iterate
import ServiceBus.Proofs.Bus.Agreement

/-!
# Sending what cannot be sent

An active exchange of the consumer is `Unready` if it has been sent before or has no in message: the
ones that dispatching refuses (`unready_iff`). A send finds that out last, when it has looked for a
route. With one it is refused and nothing has happened, however often it is tried. Without one the
exchange is failed, even if its reply is back (`send_unready`).
-/

namespace ServiceBus

namespace Exchange
variable {e : Exchange}

/-- Active and with the consumer, but sent before or without a request. -/
structure Unready (e : Exchange) : Prop where
  active : e.status = .active
  owner : e.owner = .consumer
  refused : e.hops ≠ 0 ∨ e.input = none

/-- Why an exchange that is not ready cannot be sent. -/
def sendRefusal (e : Exchange) : Refusal := if e.hops = 0 then .inMessageMissing else .alreadySent

theorem Unready.change_dispatch (h : e.Unready) (t : Endpoint) :
    e.change (.dispatch t) = (e, .error (.illegalTransition e.id e.sendRefusal)) := by
  obtain ⟨active, owner, refused⟩ := h
  by_cases hops : e.hops = 0
  · have input : e.input = none := refused.resolve_left fun sent => sent hops
    rw [sendRefusal, if_pos hops, change_dispatch_of_no_input active owner hops input]
  · simp [change, active, edit, isUnsent, hops, sendRefusal, Status.isTerminal]

theorem unready_iff (active : e.status = .active) (owner : e.owner = .consumer) (t : Endpoint) :
    e.Unready ↔ ∃ r, (e.change (.dispatch t)).2 = .error r := by
  constructor
  · exact fun h => ⟨_, by rw [h.change_dispatch t]⟩
  · rintro ⟨r, refused⟩
    refine ⟨active, owner, Decidable.or_iff_not_not_and_not.2 fun ⟨hops, input⟩ => ?_⟩
    have moves : e.Moves (.dispatch t) _ :=
      .dispatch t owner (not_not.1 hops) (Option.isSome_iff_ne_none.2 input)
    rw [moves.change active] at refused
    cases refused

end Exchange

namespace Bus
variable {b : Bus} {x : Nat}

/-! ### The first turn -/

theorem dispatch_unready (hx : x < b.exchanges.size) (unready : (b.exchange x).Unready)
    (t : Endpoint) (d : Delivery) : b.dispatch x t d = (b, .ended (.error (.exchange
      (.illegalTransition (b.exchange x).id (b.exchange x).sendRefusal)))) := by
  unfold dispatch
  rw [change_of_refused hx (by rw [unready.change_dispatch])]

/-- A route leads to a component that is connected. -/
theorem exists_delivery {e : Exchange} {t : Endpoint} (route : t ∈ b.routes e) :
    ∃ d, b.components.get? t.component = some d := by
  obtain ⟨-, connected⟩ := isRoutable_iff.1 (List.mem_filter.1 route).2
  exact Option.isSome_iff_exists.1 connected

section
variable (hx : x < b.exchanges.size) (accepting : b.closing = false)
  (unready : (b.exchange x).Unready)
include hx accepting unready

/-- A route is looked for before the exchange is looked at. -/
theorem send_unready_cases :
    (b.routes (b.exchange x) = [] ∧ ∃ selector, b.send x =
      ({ b with selector }.failQuietly x ("no route to " ++ describeAddress (b.exchange x)),
        .ended (.error (.noRoute (b.exchange x).id (describeAddress (b.exchange x)))))) ∨
    (b.routes (b.exchange x) ≠ [] ∧ ∃ selector, b.send x =
      ({ b with selector }, .ended (.error (.exchange
        (.illegalTransition (b.exchange x).id (b.exchange x).sendRefusal))))) := by
  unfold send
  dsimp only
  rw [if_neg (by simp [unready.active]), if_neg (by simp [unready.owner]),
    if_neg (by simp [accepting])]
  obtain ⟨none, selector, resolved⟩ | ⟨selector, t, route, resolved, -⟩ := b.resolveTarget_cases x
  · rw [resolved]
    exact .inl ⟨none, selector, rfl⟩
  · obtain ⟨d, delivery⟩ := exists_delivery route
    rw [resolved]
    dsimp only
    rw [delivery]
    exact .inr ⟨List.ne_nil_of_mem route, selector,
      dispatch_unready (b := { b with selector }) hx unready t d⟩

theorem send_routed (routes : b.routes (b.exchange x) ≠ []) : ∃ selector, b.send x =
    ({ b with selector }, .ended (.error (.exchange
      (.illegalTransition (b.exchange x).id (b.exchange x).sendRefusal)))) :=
  ((send_unready_cases hx accepting unready).resolve_left fun unrouted => routes unrouted.1).2

/-- Being refused changes nothing that a further try depends on. -/
theorem iterate_send_routed (routes : b.routes (b.exchange x) ≠ []) (n : Nat) :
    ∃ selector, (fun b : Bus => (b.send x).1)^[n] b = { b with selector } := by
  induction n with
  | zero => exact ⟨b.selector, rfl⟩
  | succ n ih =>
    obtain ⟨selector, before⟩ := ih
    obtain ⟨after, answer⟩ := send_routed (b := { b with selector }) hx accepting unready routes
    rw [Function.iterate_succ_apply', before, answer]
    exact ⟨after, rfl⟩

end

/-- What comes of sending `x`, which is not ready to be sent. -/
structure Resent (b : Bus) (x : Nat) : Prop where
  routed : b.routes (b.exchange x) ≠ [] → ∃ selector, b.send x =
    ({ b with selector }, .ended (.error (.exchange
      (.illegalTransition (b.exchange x).id (b.exchange x).sendRefusal))))
  again : b.routes (b.exchange x) ≠ [] → ∀ n, ∃ selector,
    (fun b : Bus => (b.send x).1)^[n] b = { b with selector }
  unrouted : b.routes (b.exchange x) = [] →
    (b.send x).2 = .ended (.error (.noRoute (b.exchange x).id (describeAddress (b.exchange x)))) ∧
    (b.send x).1.exchange x = { b.exchange x with
      status := .error
      error := some ("no route to " ++ describeAddress (b.exchange x)) }.publish ∧
    ∀ y, y ≠ x → (b.send x).1.exchange y = b.exchange y

theorem send_unready (hx : x < b.exchanges.size) (accepting : b.closing = false)
    (unready : (b.exchange x).Unready) : b.Resent x where
  routed := send_routed hx accepting unready
  again := iterate_send_routed hx accepting unready
  unrouted none := by
    obtain ⟨-, selector, sent⟩ := (send_unready_cases hx accepting unready).resolve_right
      fun routed => routed.1 none
    rw [sent, failQuietly]
    refine ⟨rfl, ?_, fun y other => ?_⟩
    · rw [exchange_change { b with selector } hx, if_pos rfl]
      exact congrArg Prod.fst (Exchange.change_fail unready.active _)
    · rw [exchange_change { b with selector } hx, if_neg other]
      rfl

/-- `answeredBus` once the send has been told; the exchange is back with its reply. -/
def repliedBus : Bus := (answeredBus.resumeSend (.processing 0 1 1000 ⟨.active, .provider, 1⟩)).1

theorem unready_repliedBus : (repliedBus.exchange 0).Unready := ⟨rfl, rfl, .inl (by decide)⟩

theorem send_unready_repliedBus : repliedBus.closing = false ∧ (repliedBus.exchange 0).Unready ∧
    repliedBus.routes (repliedBus.exchange 0) ≠ [] ∧ ∃ selector,
      repliedBus.send 0 = ({ repliedBus with selector }, .ended (.error (.exchange
        (.illegalTransition (repliedBus.exchange 0).id .alreadySent)))) := by
  have routes : repliedBus.routes (repliedBus.exchange 0) ≠ [] := by decide
  exact ⟨rfl, unready_repliedBus, routes,
    (send_unready Nat.one_pos rfl unready_repliedBus).routed routes⟩

/-- `repliedBus` once the provider has been disconnected. -/
def desertedBus : Bus := (repliedBus.disconnect stock.component).1

/-- Trying to send the answered exchange again fails it. -/
theorem failed_desertedBus : 0 < desertedBus.exchanges.size ∧ desertedBus.closing = false ∧
    (desertedBus.exchange 0).Unready ∧ (desertedBus.exchange 0).hops = 2 ∧
    (desertedBus.send 0).2 =
      .ended (.error (.noRoute (desertedBus.exchange 0).id "endpoint Stock:main")) ∧
    ((desertedBus.send 0).1.exchange 0).status = .error :=
  ⟨Nat.one_pos, rfl, ⟨rfl, rfl, .inl (by decide)⟩, rfl, rfl, rfl⟩

end Bus

end ServiceBus
