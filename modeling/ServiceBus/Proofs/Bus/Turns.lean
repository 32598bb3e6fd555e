import ServiceBus.Proofs.Bus.Evolution
import ServiceBus.Proofs.Bus.Route
import ServiceBus.Proofs.Exchange.Underway

/-!
# What the turns of a send come to

Each part of a send ends in one of a few ways, and these lemmas name them: failing and settling an
exchange, waiting for a processor, delivering, handing back, dispatching and the first turn as a
whole. What follows from a turn is then read off here, without opening the functions again.
-/

namespace ServiceBus

/-- The pending send is about the exchange `x`, and not about a reply. -/
def Sending.Concerns (x : Nat) : Sending → Prop
  | .persisting y _ _ _ | .processing y _ _ _ | .queueing y _ _ _ | .replying y _ _ => y = x
  | .responding .. => False

/-- The send has put `x` into a queue, or waits to do so. -/
def Sending.Queues (x : Nat) : Sending → Prop
  | .queueing y _ _ _ | .replying y _ _ => y = x
  | _ => False

namespace Bus
variable {b b' : Bus} {x : Nat}

/-! ### Failing an exchange -/

theorem terminal_failQuietly (hx : x < b.exchanges.size) (cause : String) :
    ((b.failQuietly x cause).exchange x).status ≠ .active := by
  rw [failQuietly, exchange_change b hx, if_pos rfl]
  by_cases ha : (b.exchange x).status = .active
  · rw [Exchange.change_fail ha]
    exact fun h => by cases h
  · rwa [Exchange.change_of_terminal (Status.isTerminal_iff.2 ha)]

theorem failed_failQuietly (hx : x < b.exchanges.size) (ha : (b.exchange x).status = .active)
    (cause : String) :
    ((b.failQuietly x cause).exchange x).status = .error ∧
      ((b.failQuietly x cause).exchange x).error.isSome = true := by
  rw [failQuietly, exchange_change b hx, if_pos rfl, Exchange.change_fail ha]
  exact ⟨rfl, rfl⟩

theorem change_fail_cases (b : Bus) (x : Nat) (cause : String) :
    ((b.exchange x).status = .active ∧
      b.change x (.fail cause) = (b.failQuietly x cause, .ok ())) ∨
    ((b.exchange x).status ≠ .active ∧
      ∃ e, b.change x (.fail cause) = (b.failQuietly x cause, .error e)) := by
  by_cases ha : (b.exchange x).status = .active
  · refine .inl ⟨ha, Prod.ext rfl ?_⟩
    rw [change_snd, Exchange.change_fail ha]
  · have ht := Exchange.change_of_terminal (Status.isTerminal_iff.2 ha) (.fail cause)
    exact .inr ⟨ha, .illegalState (b.exchange x).id (b.exchange x).status .fail,
      Prod.ext rfl (by rw [change_snd, ht]; rfl)⟩

/-! ### Handing over -/

/-- From `b` to `b'` the exchange `x` has moved, and nothing else has happened. -/
structure Moved (b : Bus) (x : Nat) (c : Change) (b' : Bus) : Prop extends Evolves b b' where
  lt_size : x < b.exchanges.size
  ledger_eq : b'.ledger = b.ledger
  queues_eq : b'.queues = b.queues
  fresh_eq : b'.fresh = b.fresh
  active : (b.exchange x).status = .active
  moves : ∃ y, (b.exchange x).Moves c y ∧ b'.exchange x = y.publish
  others_eq : ∀ y, y ≠ x → b'.exchange y = b.exchange y

theorem Moved.sent {t : Endpoint} (h : Moved b x (.dispatch t) b') : (b'.exchange x).Sent := by
  obtain ⟨y, hy, e⟩ := h.moves
  exact ⟨_, t, e ▸ Exchange.Underway.of_dispatch hy⟩

/-- A change is refused with nothing written, or it moves the exchange. -/
theorem change_result (hx : x < b.exchanges.size) (c : Change) :
    (∃ e, b.change x c = (b, .error e)) ∨ ∃ b', b.change x c = (b', .ok ()) ∧ Moved b x c b' := by
  have hb : { b with exchanges := b.exchanges.setIfInBounds x (b.exchange x) } = b := by
    have he : b.exchange x = b.exchanges[x] := by simp [exchange, hx]
    rw [he, Array.setIfInBounds_def, dif_pos hx, Array.set_getElem_self]
  rcases (b.exchange x).change_cases c with ⟨-, h⟩ | ⟨-, r, h⟩ | ⟨ha, y, hy, h⟩
  · exact .inl ⟨_, by unfold change; rw [h]; exact congrArg (·, _) hb⟩
  · exact .inl ⟨_, by unfold change; rw [h]; exact congrArg (·, _) hb⟩
  · refine .inr ⟨(b.change x c).1, Prod.ext rfl ?_, .change b x c, hx, rfl, rfl, rfl, ha,
      ⟨y, hy, ?_⟩, ?_⟩
    · rw [change_snd, h]
    · rw [exchange_change b hx, if_pos rfl, h]
    · intro z hz
      rw [exchange_change b hx, if_neg hz]

/-- What an exchange refuses leaves the whole bus as it was. -/
theorem change_of_refused (hx : x < b.exchanges.size) {c : Change} {e : ExchangeError}
    (h : ((b.exchange x).change c).2 = .error e) : b.change x c = (b, .error e) := by
  have answer := change_snd b x c
  rw [h] at answer
  rcases change_result hx c with ⟨e', refused⟩ | ⟨b', done, -⟩
  · rw [refused] at answer ⊢
    obtain rfl := Except.error.inj answer
    rfl
  · rw [done] at answer
    cases answer

theorem respond_cases (hx : x < b.exchanges.size) :
    (∃ r, b.respond x = (b, .ended r)) ∨
    ∃ b', Moved b x .handBack b' ∧ b.respond x =
      if b'.persists x then ((b'.persist x).1, (b'.persist x).1.replied x (b'.persist x).2)
      else (b', .ended (.ok (b'.exchange x).status)) := by
  unfold respond
  dsimp only
  split
  · exact .inl ⟨_, rfl⟩
  · obtain ⟨e, h⟩ | ⟨b', h, moved⟩ := change_result hx .handBack <;> rw [h]
    · exact .inl ⟨_, rfl⟩
    · exact .inr ⟨b', moved, rfl⟩

theorem dispatch_cases (hx : x < b.exchanges.size) (t : Endpoint) (d : Delivery) :
    (∃ r, b.dispatch x t d = (b, .ended r)) ∨
    ∃ b', Moved b x (.dispatch t) b' ∧ b.dispatch x t d =
      if b'.persists x then (b'.persist x).1.persisted x t d (b'.persist x).2
      else b'.deliver x t d := by
  unfold dispatch
  obtain ⟨e, h⟩ | ⟨b', h, moved⟩ := change_result hx (.dispatch t) <;> rw [h]
  · exact .inl ⟨_, rfl⟩
  · exact .inr ⟨b', moved, rfl⟩

/-- The first turn of a send refuses, hands back or dispatches. -/
theorem send_cases (b : Bus) (x : Nat) :
    (∃ b' r, Stirs b b' ∧ b'.queues = b.queues ∧ b.send x = (b', .ended r)) ∨
    ((b.exchange x).owner = .provider ∧ b.send x = b.respond x) ∨
    ∃ selector t d, (b.exchange x).owner ≠ .provider ∧
      b.send x = { b with selector }.dispatch x t d := by
  have hr := Stirs.resolveTarget b x
  unfold send
  dsimp only
  split
  · exact .inl ⟨_, _, .refl b, rfl, rfl⟩
  · split
    · next owner => exact .inr (.inl ⟨owner, rfl⟩)
    · next owner =>
      split
      · exact .inl ⟨_, _, .refl b, rfl, rfl⟩
      · obtain ⟨-, selector, h⟩ | ⟨selector, t, -, h, -⟩ := b.resolveTarget_cases x <;>
          rw [h] at hr ⊢
        · exact .inl ⟨_, _, hr, rfl, rfl⟩
        · dsimp only
          split
          · next d _ => exact .inr (.inr ⟨selector, t, d, owner, rfl⟩)
          · exact .inl ⟨_, _, hr.trans (.failQuietly _ x _), rfl, rfl⟩

/-! ### Settling -/

/-- Settling after a processor hands the reply back, or it only stirs. -/
theorem settle_turn (hx : x < b.exchanges.size) (run : Nat) (o : Outcome) :
    Stirs b (b.settle x run o).1 ∨ Moved b x .handBack (b.settle x run o).1 := by
  unfold settle
  split
  · next reason _ =>
    have hs : Stirs b (b.change x (.fail reason)).1 := .change b x rfl
    split <;> next e => rw [e] at hs; exact .inl hs
  · dsimp only
    split
    · obtain ⟨e, h⟩ | ⟨b', h, moved⟩ := change_result hx .handBack <;> rw [h]
      · exact .inl (.refl b)
      · exact .inr moved
    · split
      · exact .inl (.refl b)
      · exact .inl (.failQuietly b x _)

theorem ledger_settle (hx : x < b.exchanges.size) (run : Nat) (o : Outcome) :
    (b.settle x run o).1.ledger = b.ledger :=
  (settle_turn hx run o).elim (·.ledger_eq) (·.ledger_eq)

/-- Settling after a processor fails the exchange on the processor's account, or leaves it ended or
answered. -/
theorem settle_cases (hx : x < b.exchanges.size) (run : Nat) (o : Outcome) :
    (∃ b' id reason, b.settle x run o = (b', .error (.rejected id reason)) ∧
      (b'.exchange x).status = .error ∧ (b'.exchange x).error.isSome = true) ∨
    (∃ b', b.settle x run o = (b', .ok ()) ∧
      ((b'.exchange x).status ≠ .active ∨ (b'.exchange x).owner = .consumer)) := by
  unfold settle
  cases o.reason? run with
  | some reason =>
    obtain ⟨ha, hc⟩ | ⟨-, e, hc⟩ := change_fail_cases b x reason <;> dsimp only <;> rw [hc]
    · exact .inl ⟨_, _, _, rfl, failed_failQuietly hx ha reason⟩
    · exact .inr ⟨_, rfl, .inl (terminal_failQuietly hx _)⟩
  | none =>
    dsimp only
    split
    · next hr =>
      refine .inr ⟨_, rfl, .inr ?_⟩
      rw [exchange_change b hx, if_pos rfl, Exchange.change_handBack_of_ready hr]
      rfl
    · split
      · next hs =>
        simp only [Bool.or_eq_true, decide_eq_true_eq] at hs
        exact .inr ⟨b, rfl, hs.imp_left Status.isTerminal_iff.1⟩
      · exact .inr ⟨_, rfl, .inl (terminal_failQuietly hx _)⟩

/-- A dispatched exchange whose processor has come to its end is settled. -/
theorem settled_settle (hx : x < b.exchanges.size) (sent : (b.exchange x).Sent) (run : Nat)
    (o : Outcome) : ((b.settle x run o).1.exchange x).Settled := by
  have hs := sent.leads ((Evolves.settle b x run o).leads x hx)
  obtain ⟨b', id, reason, h, status, -⟩ | ⟨b', h, hb⟩ := settle_cases hx run o <;> rw [h] at hs ⊢
  · exact .inl fun ha => by rw [status] at ha; cases ha
  · exact hs.settled hb

/-! ### Waiting for a processor -/

/-- One who waits for a processor waits on, or the exchange is settled. -/
theorem awaitProcessor_cases (hx : x < b.exchanges.size) (sent : (b.exchange x).Sent)
    (run deadline : Nat) :
    (∃ b' r, b.awaitProcessor x run deadline = (b', .ended r) ∧ (b'.exchange x).Settled ∧
      (Stirs b b' ∨ Moved b x .handBack b')) ∨
    ∃ seen, b.outcomes.get? run = none ∧
      b.awaitProcessor x run deadline = (b, .waiting (.processing x run deadline seen)) := by
  unfold awaitProcessor
  split
  · next o _ =>
    have hs := settled_settle hx sent run o
    have ht := settle_turn hx run o
    split <;> next e => rw [e] at hs ht; exact .inl ⟨_, _, rfl, hs, ht⟩
  · next none =>
    split
    · next hr => exact .inl ⟨_, _, rfl, .inl (sent.isComplete_iff.1 hr), .inl (.refl b)⟩
    · split
      · exact .inl ⟨_, _, rfl, .inl (terminal_failQuietly hx _), .inl (.failQuietly b x _)⟩
      · exact .inr ⟨_, none, rfl⟩

/-! ### Delivering -/

theorem queues_awaitReply {deadline : Nat} {c : Sending}
    (h : (b.awaitReply x deadline).2 = .waiting c) : c.Queues x := by
  unfold awaitReply at h
  split at h
  · cases h
  · split at h <;> cases h
    rfl

theorem queues_queued {c : Sending} (h : (b.queued x).2 = .waiting c) : c.Queues x := by
  unfold queued at h
  split at h
  · exact queues_awaitReply h
  · cases h

theorem queues_enqueue {k : ComponentId} {q : Nat} {ticket : Option Nat} {c : Sending}
    (h : (b.enqueue x k q ticket).2 = .waiting c) : c.Queues x := by
  unfold enqueue at h
  split at h
  · cases h
  · split at h
    · cases h
    · split at h <;> split at h
      · exact queues_queued h
      · cases h
        rfl
      · exact queues_queued h
      · cases h
        rfl

/-- The bus on which an exchange has just been given to a processor. -/
def started (b : Bus) (x processor : Nat) (awaited : Bool) : Bus :=
  (b.track x).take.1.launch (.processor b.fresh processor x awaited)

theorem deliver_push (b : Bus) (x : Nat) (t : Endpoint) (n : Nat) :
    b.deliver x t (.push n) =
      if (b.exchange x).synchronous then
        (b.started x n true).awaitProcessor x b.fresh (b.now + b.settings.syncTimeout)
      else (b.started x n false, .ended (.ok .active)) := by
  have hd : b.deliver x t (.push n) =
      if (b.exchange x).synchronous then
        (b.started x n (b.exchange x).synchronous).awaitProcessor x b.fresh
          (b.now + b.settings.syncTimeout)
      else (b.started x n (b.exchange x).synchronous, .ended (.ok .active)) := rfl
  rw [hd]
  cases (b.exchange x).synchronous <;> rfl

/-- A delivery starts a processor, whom the sender leaves alone or awaits, or it goes into a
queue. -/
theorem deliver_cases (b : Bus) (x : Nat) (t : Endpoint) (d : Delivery) :
    (∃ n, b.deliver x t d = (b.started x n false, .ended (.ok .active))) ∨
    (∃ n deadline, b.deliver x t d = (b.started x n true).awaitProcessor x b.fresh deadline) ∨
    (Stirs (b.track x) (b.deliver x t d).1 ∧
      ∀ c, (b.deliver x t d).2 = .waiting c → c.Queues x) := by
  cases d with
  | push n =>
    rw [deliver_push]
    split
    · exact .inr (.inl ⟨n, _, rfl⟩)
    · exact .inl ⟨n, rfl⟩
  | pull q => exact .inr (.inr ⟨.enqueue (b.track x) x _ q none, fun c => queues_enqueue⟩)

end Bus

end ServiceBus
