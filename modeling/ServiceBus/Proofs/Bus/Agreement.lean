import ServiceBus.Proofs.Bus.Turns

/-!
# The answer of a send agrees with the exchange

A send takes its turns between those of others: `b₀.Sends x (b, t)` says that one which began on
`b₀` has had some turns, has left `b` and is `t`. However the exchange evolves between its turns,
what it answers in the end is borne out by the exchange at that moment (`send_agrees`). What carries
the proof is that from dispatch on the exchange is `Underway`, and that a pending send is still
about it.
-/

namespace ServiceBus.Bus
variable {b₀ b b' : Bus} {x : Nat} {t : Endpoint}

/-- A send that began on `b₀` has left this bus and is at this turn. -/
inductive Sends (b₀ : Bus) (x : Nat) : Bus × Turn Sending SendResult → Prop
  | begin : Sends b₀ x (b₀.send x)
  | resume {b b' : Bus} {c : Sending} (h : Sends b₀ x (b, .waiting c)) (others : Evolves b b') :
    Sends b₀ x (b'.resumeSend c)

/-- How a send's answer may find the exchange, `b₀` being the bus it began on. -/
inductive Agrees (b₀ : Bus) (x : Nat) (b : Bus) : SendResult → Prop
  | ended {s : Status} (terminal : s ≠ .active) (status : (b.exchange x).status = s) :
    Agrees b₀ x b (.ok s)
  | returned (synchronous : (b₀.exchange x).synchronous = true)
      (status : (b.exchange x).status = .active) (owner : (b.exchange x).owner = .consumer)
      (hops : (b.exchange x).hops = 2) (reply : (b.exchange x).hasReply = true) :
    Agrees b₀ x b (.ok .active)
  | dispatched {t : Endpoint} (asynchronous : (b₀.exchange x).synchronous = false)
      (resolved : (b₀.resolveTarget x).2 = .ok t) (hops : 1 ≤ (b.exchange x).hops)
      (target : (b.exchange x).target = some t) : Agrees b₀ x b (.ok .active)
  | noRoute {id address : String} (status : (b.exchange x).status = .error)
      (cause : (b.exchange x).error.isSome = true) : Agrees b₀ x b (.error (.noRoute id address))
  | rejected {id reason : String} (status : (b.exchange x).status = .error)
      (cause : (b.exchange x).error.isSome = true) : Agrees b₀ x b (.error (.rejected id reason))
  | timeout {id : Option String} {waited : Nat} (status : (b.exchange x).status = .error)
      (cause : (b.exchange x).error.isSome = true) : Agrees b₀ x b (.error (.timeout id waited))
  | store {e : StoreError} (terminal : (b.exchange x).status ≠ .active) :
    Agrees b₀ x b (.error (.store e))
  | notConnected {c : ComponentId} (terminal : (b.exchange x).status ≠ .active) :
    Agrees b₀ x b (.error (.notConnected c))
  | stopped (accepting : b₀.closing = false) (terminal : (b.exchange x).status ≠ .active) :
    Agrees b₀ x b (.error .shuttingDown)
  | closing (closing : b₀.closing = true) (same : b = b₀) : Agrees b₀ x b (.error .shuttingDown)
  | unready {id : String} (input : (b₀.exchange x).input = none)
      (same : b.exchange x = b₀.exchange x) :
    Agrees b₀ x b (.error (.exchange (.illegalTransition id .inMessageMissing)))

/-- On `b` the send that began on `b₀` has dispatched `x` to `t`. -/
structure Carries (b₀ : Bus) (x : Nat) (t : Endpoint) (b : Bus) : Prop where
  accepting : b₀.closing = false
  resolved : (b₀.resolveTarget x).2 = .ok t
  lt_size : x < b.exchanges.size
  underway : (b₀.exchange x).Underway t (b.exchange x)

/-- A turn of the send that keeps it right: its answer agrees, or it waits on. -/
inductive Proceeds (b₀ : Bus) (x : Nat) : Bus × Turn Sending SendResult → Prop
  | ended {b : Bus} {r : SendResult} (agrees : Agrees b₀ x b r) : Proceeds b₀ x (b, .ended r)
  | waiting {b : Bus} {c : Sending} {t : Endpoint} (carries : Carries b₀ x t b)
      (concerns : c.Concerns x) : Proceeds b₀ x (b, .waiting c)

/-! ### Turns after dispatch -/

namespace Carries

theorem evolves (h : Carries b₀ x t b) (he : Evolves b b') : Carries b₀ x t b' :=
  { h with
    lt_size := Nat.lt_of_lt_of_le h.lt_size he.size_le
    underway := h.underway.leads (he.leads x h.lt_size) }

theorem of_eq (h : Carries b₀ x t b) (he : b'.exchanges = b.exchanges) : Carries b₀ x t b' :=
  h.evolves (.of_eq he)

theorem progress_eq (h : Carries b₀ x t b) : b.progress x = (b.exchange x).progress :=
  h.underway.published_eq

theorem reached_completion_iff (h : Carries b₀ x t b) :
    b.reached x .completion = true ↔ (b.exchange x).status ≠ .active :=
  h.underway.isComplete_iff

theorem reached_reply_iff (h : Carries b₀ x t b) : b.reached x .reply = true ↔
    (b.exchange x).status ≠ .active ∨ (b.exchange x).owner = .consumer :=
  h.underway.isReplied_iff

theorem agrees_dispatched (h : Carries b₀ x t b) (hs : ¬ (b.exchange x).synchronous = true) :
    Agrees b₀ x b (.ok .active) := by
  rw [h.underway.synchronous_eq] at hs
  exact .dispatched (Bool.eq_false_iff.2 hs) h.resolved h.underway.hops_pos h.underway.target_eq

/-- Back with the consumer, or at its end: whatever the status, it is right to answer with it. -/
theorem agrees_status (h : Carries b₀ x t b)
    (hr : (b.exchange x).status ≠ .active ∨ (b.exchange x).owner = .consumer) :
    Agrees b₀ x b (.ok (b.exchange x).status) := by
  by_cases ha : (b.exchange x).status = .active
  · rw [ha]
    by_cases hs : (b.exchange x).synchronous = true
    · have ho := hr.resolve_left fun hn => hn ha
      obtain ⟨hops, reply⟩ := h.underway.returned ho
      exact .returned (h.underway.synchronous_eq ▸ hs) ha ho hops reply
    · exact h.agrees_dispatched hs
  · exact .ended ha rfl

theorem timedOut (h : Carries b₀ x t b) (ha : (b.exchange x).status = .active) :
    Proceeds b₀ x (b.timedOut x) := by
  obtain ⟨hs, hc⟩ := failed_failQuietly h.lt_size ha _
  exact .ended (.timeout hs hc)

theorem refuseQueue (h : Carries b₀ x t b) {e : RouterError}
    (he : e = .shuttingDown ∨ ∃ c, e = .notConnected c) : Proceeds b₀ x (b.refuseQueue x e) := by
  have hs := terminal_failQuietly h.lt_size e.message
  rcases he with rfl | ⟨c, rfl⟩
  · exact .ended (.stopped h.accepting hs)
  · exact .ended (.notConnected hs)

theorem awaitReply (h : Carries b₀ x t b) (deadline : Nat) :
    Proceeds b₀ x (b.awaitReply x deadline) := by
  unfold Bus.awaitReply
  split
  · next hr =>
    rw [h.progress_eq]
    exact .ended (h.agrees_status (h.reached_reply_iff.1 hr))
  · next hr =>
    rw [h.reached_reply_iff, not_or, not_not] at hr
    split
    · exact h.timedOut hr.1
    · exact .waiting h rfl

theorem queued (h : Carries b₀ x t b) : Proceeds b₀ x (b.queued x) := by
  unfold Bus.queued
  split
  · exact h.awaitReply _
  · next hs => exact .ended (h.agrees_dispatched hs)

theorem enqueue (h : Carries b₀ x t b) (c : ComponentId) (q : Nat) (ticket : Option Nat) :
    Proceeds b₀ x (b.enqueue x c q ticket) := by
  have hw : Carries b₀ x t (b.forgo q ticket) := h.evolves (Stirs.forgo b q ticket).toEvolves
  have hq (p : PullQueue) : Carries b₀ x t (b.setQueue q p) := h.of_eq rfl
  unfold Bus.enqueue
  split
  · exact hw.refuseQueue (.inl rfl)
  · split
    · exact hw.refuseQueue (.inr ⟨c, rfl⟩)
    · split <;> split
      · exact (hq _).queued
      · exact .waiting (h.of_eq rfl) rfl
      · exact (hq _).queued
      · exact .waiting h rfl

theorem awaitProcessor (h : Carries b₀ x t b) (run deadline : Nat) :
    Proceeds b₀ x (b.awaitProcessor x run deadline) := by
  unfold Bus.awaitProcessor
  split
  · next o _ =>
    have he := Evolves.settle b x run o
    obtain ⟨b', id, reason, hs, hst, hc⟩ | ⟨b', hs, hst⟩ := settle_cases h.lt_size run o <;>
      rw [hs] at he ⊢
    · exact .ended (.rejected hst hc)
    · exact .ended ((h.evolves he).agrees_status hst)
  · split
    · next hr =>
      rw [h.progress_eq]
      exact .ended (h.agrees_status (.inl (h.reached_completion_iff.1 hr)))
    · next hr =>
      rw [h.reached_completion_iff, not_not] at hr
      split
      · exact h.timedOut hr
      · exact .waiting h rfl

theorem push (h : Carries b₀ x t b) (processor : Nat) : Proceeds b₀ x (b.push x processor) := by
  have hl (l : Launch) : Carries b₀ x t (b.take.1.launch l) := h.of_eq rfl
  unfold Bus.push
  dsimp only
  split
  · exact (hl _).awaitProcessor _ _
  · next hs => exact .ended ((hl _).agrees_dispatched hs)

theorem deliver (h : Carries b₀ x t b) (target : Endpoint) (d : Delivery) :
    Proceeds b₀ x (b.deliver x target d) := by
  have ht : Carries b₀ x t (b.track x) := h.of_eq rfl
  cases d with
  | push processor => exact ht.push processor
  | pull q => exact ht.enqueue _ q none

theorem persisted (h : Carries b₀ x t b) (target : Endpoint) (d : Delivery)
    (a : Turn Access StoreAnswer) : Proceeds b₀ x (b.persisted x target d a) := by
  cases a with
  | waiting a => exact .waiting h rfl
  | ended r =>
    cases r with
    | ok _ => exact h.deliver target d
    | error e => exact .ended (.store (terminal_failQuietly h.lt_size _))

theorem resumeSend (h : Carries b₀ x t b) {c : Sending} (hc : c.Concerns x) :
    Proceeds b₀ x (b.resumeSend c) := by
  cases c with
  | persisting y target d a =>
    obtain rfl := hc
    exact (h.evolves (Calls.resumeAccess b a).evolves).persisted target d _
  | processing y run deadline seen =>
    obtain rfl := hc
    exact h.awaitProcessor run deadline
  | queueing y c q ticket =>
    obtain rfl := hc
    exact h.enqueue c q (some ticket)
  | replying y deadline seen =>
    obtain rfl := hc
    exact h.awaitReply deadline
  | responding y a => exact hc.elim

end Carries

/-! ### The first turn -/

section
variable (active : (b₀.exchange x).status = .active) (owner : (b₀.exchange x).owner = .consumer)
  (hops : (b₀.exchange x).hops = 0)
include active owner hops

theorem dispatch_proceeds (accepting : b₀.closing = false)
    (resolved : (b₀.resolveTarget x).2 = .ok t) (hx : x < b.exchanges.size)
    (same : b.exchange x = b₀.exchange x) (d : Delivery) : Proceeds b₀ x (b.dispatch x t d) := by
  have he := exchange_change b hx (c := .dispatch t) x
  have hr := change_snd b x (.dispatch t)
  have hs := (Evolves.change b x (.dispatch t)).size_le
  rw [if_pos rfl] at he
  rw [same] at he hr
  unfold dispatch
  generalize b.change x (.dispatch t) = changed at he hr hs
  obtain ⟨b', r⟩ := changed
  cases hi : (b₀.exchange x).input with
  | none =>
    rw [Exchange.change_dispatch_of_no_input active owner hops hi] at he hr
    obtain rfl := hr
    exact .ended (.unready hi he)
  | some m =>
    have hm : (b₀.exchange x).Moves (.dispatch t) _ := .dispatch t owner hops (by rw [hi]; rfl)
    rw [hm.change active] at he hr
    obtain rfl := hr
    have hc : Carries b₀ x t b' :=
      ⟨accepting, resolved, Nat.lt_of_lt_of_le hx hs, he ▸ Exchange.Underway.of_dispatch hm⟩
    dsimp only
    split
    · exact (hc.evolves (Calls.persist b' x).evolves).persisted t d _
    · exact hc.deliver t d

theorem send_proceeds (hx : x < b₀.exchanges.size) : Proceeds b₀ x (b₀.send x) := by
  unfold send
  dsimp only
  rw [if_neg (by simp [active]), if_neg (by simp [owner])]
  split
  · next hc => exact .ended (.closing hc rfl)
  · next hc =>
    have accepting := Bool.eq_false_iff.2 hc
    obtain ⟨-, selector, h⟩ | ⟨selector, t, -, h, -⟩ := b₀.resolveTarget_cases x
    · obtain ⟨hs, hcause⟩ := failed_failQuietly (b := { b₀ with selector }) hx active
        ("no route to " ++ describeAddress (b₀.exchange x))
      rw [h]
      exact .ended (.noRoute hs hcause)
    · have resolved : (b₀.resolveTarget x).2 = .ok t := by rw [h]
      rw [h]
      dsimp only
      split
      · next d _ =>
        exact dispatch_proceeds (b := { b₀ with selector }) active owner hops accepting resolved
          hx rfl d
      · exact .ended (.notConnected (terminal_failQuietly (b := { b₀ with selector }) hx _))

theorem Sends.proceeds {r : Bus × Turn Sending SendResult} (hx : x < b₀.exchanges.size)
    (h : Sends b₀ x r) : Proceeds b₀ x r := by
  induction h with
  | begin => exact send_proceeds active owner hops hx
  | resume _ others ih =>
    cases ih with
    | waiting carries concerns => exact (carries.evolves others).resumeSend concerns

end

/-- Whatever others do meanwhile, the answer of a send agrees with the exchange. -/
theorem send_agrees {r : SendResult} (hx : x < b₀.exchanges.size)
    (active : (b₀.exchange x).status = .active) (owner : (b₀.exchange x).owner = .consumer)
    (hops : (b₀.exchange x).hops = 0) (h : Sends b₀ x (b, .ended r)) : Agrees b₀ x b r := by
  cases h.proceeds active owner hops hx with
  | ended agrees => exact agrees

/-- A bus with a synchronous request to `stock`, which a processor serves. -/
def servedBus : Bus :=
  { Bus.new .first id ⟨false, 1000, 1, none⟩ with
    registry := [Registry.Call.register stock].foldl Registry.after .empty
    components := Table.empty.insert stock.component (.push 0)
    exchanges := #[{ (default : Exchange) with
      pattern := .inOut, synchronous := true, owner := .consumer, target := some stock
      input := some .empty }] }

/-- `servedBus` once its request was sent and the processor has replied and returned. -/
def answeredBus : Bus :=
  ((servedBus.send 0).1.change 0 (.setOut .empty)).1.finish 0 1 true .returned

theorem sends_servedBus : servedBus.Sends 0
    ((answeredBus.resumeSend (.processing 0 1 1000 ⟨.active, .provider, 1⟩)).1,
      .ended (.ok .active)) := by
  have hs : servedBus.send 0 =
      ((servedBus.send 0).1, .waiting (.processing 0 1 1000 ⟨.active, .provider, 1⟩)) := rfl
  have h : servedBus.Sends 0 (servedBus.send 0) := .begin
  rw [hs] at h
  exact h.resume ((Evolves.change _ 0 (.setOut .empty)).trans (.finish _ 0 1 true .returned))

theorem send_agrees_servedBus :
    0 < servedBus.exchanges.size ∧ (servedBus.exchange 0).status = .active ∧
      (servedBus.exchange 0).owner = .consumer ∧ (servedBus.exchange 0).hops = 0 ∧
      ∃ b, servedBus.Sends 0 (b, .ended (.ok .active)) ∧ servedBus.Agrees 0 b (.ok .active) :=
  ⟨Nat.one_pos, rfl, rfl, rfl, _, sends_servedBus,
    send_agrees Nat.one_pos rfl rfl rfl sends_servedBus⟩

end ServiceBus.Bus
