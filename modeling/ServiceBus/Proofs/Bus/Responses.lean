import ServiceBus.Proofs.Bus.Turns

/-!
# Replies that fail

A reply hands the exchange back first and writes it down afterwards, so its errors are of two kinds
(`respond_fails`). An exchange that is not ready to be handed back is refused, and nothing has
happened. If the write fails, the exchange has been handed back all the same: those who wait for the
reply have been woken, and what is active still is not handed back a second time.
-/

namespace ServiceBus

namespace Exchange
variable {e y z : Exchange} {why : Refusal}

/-- Why an exchange is not handed back. -/
inductive Unreturnable (e : Exchange) : Refusal → Prop
  | notDelivered (elsewhere : e.isDelivered = false) : Unreturnable e .notDelivered
  | noReply (delivered : e.isDelivered = true) (unanswered : e.hasReply = false) :
    Unreturnable e .noReply

theorem Unreturnable.change_handBack (h : e.Unreturnable why) (active : e.status = .active) :
    e.change .handBack = (e, .error (.illegalTransition e.id why)) := by
  cases h with
  | notDelivered elsewhere => simp [change, active, Status.isTerminal, edit, elsewhere]
  | noReply delivered unanswered =>
    simp [change, active, Status.isTerminal, edit, delivered, unanswered]

/-- An active exchange is handed back, or there is a reason why not. -/
theorem returnable_cases (active : e.status = .active) :
    e.replyReady = true ∨ ∃ why, e.Unreturnable why := by
  cases delivered : e.isDelivered with
  | false => exact .inr ⟨_, .notDelivered delivered⟩
  | true =>
    cases reply : e.hasReply with
    | false => exact .inr ⟨_, .noReply delivered reply⟩
    | true => exact .inl (replyReady_iff.2 ⟨active, delivered, reply⟩)

theorem settled_returned (ready : e.replyReady = true) : e.returned.Settled :=
  .inr ⟨rfl, rfl, (replyReady_iff.1 ready).2.2⟩

/-- What has been handed back is seen to be, whatever has become of it. -/
theorem isReplied_of_returned (h : e.returned.Leads z) : z.published.isReplied = true := by
  have shows : e.returned.Shows := rfl
  have back : e.returned.progress.isReplied = true :=
    isReplied_progress_iff.2 (.inr ⟨rfl, Nat.one_lt_two⟩)
  rw [show z.published = z.progress from shows.leads h]
  exact isReplied_leads back h

end Exchange

namespace Bus
variable {b₀ b b' : Bus} {x : Nat} {e : RouterError}

/-- A reply of the provider that began on `b₀` has left this bus and is at this turn. -/
inductive Responds (b₀ : Bus) (x : Nat) : Bus × Turn Sending SendResult → Prop
  | respond : Responds b₀ x (b₀.respond x)
  | send (owner : (b₀.exchange x).owner = .provider) : Responds b₀ x (b₀.send x)
  | resume {b b' : Bus} {c : Sending} (h : Responds b₀ x (b, .waiting c)) (others : Evolves b b') :
    Responds b₀ x (b'.resumeSend c)

/-- On `b₀` the exchange was ready, and `b` has what has become of it since it was handed back. -/
structure HandedBack (b₀ : Bus) (x : Nat) (b : Bus) : Prop where
  ready : (b₀.exchange x).replyReady = true
  persists : b₀.persists x = true
  lt_size : x < b.exchanges.size
  leads : (b₀.exchange x).returned.Leads (b.exchange x)

/-- What a turn of a reply comes to. -/
inductive Replies (b₀ : Bus) (x : Nat) : Bus × Turn Sending SendResult → Prop
  | answered {b : Bus} {s : Status} : Replies b₀ x (b, .ended (.ok s))
  | refused {why : Refusal} (active : (b₀.exchange x).status = .active)
      (unreturnable : (b₀.exchange x).Unreturnable why) :
    Replies b₀ x (b₀, .ended (.error (.exchange (.illegalTransition (b₀.exchange x).id why))))
  | unwritten {b : Bus} {e : StoreError} (back : HandedBack b₀ x b) :
    Replies b₀ x (b, .ended (.error (.store e)))
  | writing {b : Bus} {a : Access} (back : HandedBack b₀ x b) :
    Replies b₀ x (b, .waiting (.responding x a))

theorem HandedBack.evolves (h : HandedBack b₀ x b) (he : Evolves b b') : HandedBack b₀ x b' :=
  { h with
    lt_size := Nat.lt_of_lt_of_le h.lt_size he.size_le
    leads := h.leads.trans (he.leads x h.lt_size) }

theorem HandedBack.replied (h : HandedBack b₀ x b) (t : Turn Access StoreAnswer) :
    Replies b₀ x (b, b.replied x t) := by
  cases t with
  | waiting a => exact .writing h
  | ended r =>
    cases r with
    | ok _ => exact .answered
    | error e => exact .unwritten h

/-! ### Turns -/

section
variable (hx : x < b.exchanges.size)
include hx

theorem respond_of_unreturnable {why : Refusal} (active : (b.exchange x).status = .active)
    (h : (b.exchange x).Unreturnable why) : b.respond x =
      (b, .ended (.error (.exchange (.illegalTransition (b.exchange x).id why)))) := by
  unfold respond
  dsimp only
  rw [if_neg (by simp [active]), change_of_refused hx (by rw [h.change_handBack active])]

/-- The exchange is handed back before anything is written. -/
theorem respond_of_ready (ready : (b.exchange x).replyReady = true) : ∃ b', Evolves b b' ∧
    b'.settings = b.settings ∧ b'.exchange x = (b.exchange x).returned ∧ b.respond x =
      if b'.persists x then ((b'.persist x).1, (b'.persist x).1.replied x (b'.persist x).2)
      else (b', .ended (.ok (b'.exchange x).status)) := by
  have back := Exchange.change_handBack_of_ready ready
  have changed : b.change x .handBack = ((b.change x .handBack).1, .ok ()) :=
    Prod.ext rfl (by rw [change_snd, back])
  refine ⟨(b.change x .handBack).1, .change b x .handBack, rfl, ?_, ?_⟩
  · rw [exchange_change b hx, if_pos rfl, back]
  · unfold respond
    dsimp only
    rw [if_neg (by simp [(Exchange.replyReady_iff.1 ready).1]), changed]

theorem exchange_respond (ready : (b.exchange x).replyReady = true) :
    (b.respond x).1.exchange x = (b.exchange x).returned := by
  obtain ⟨b', -, -, returned, answer⟩ := respond_of_ready hx ready
  rw [answer]
  split
  · exact ((Calls.persist b' x).exchange_eq x).trans returned
  · exact returned

theorem respond_replies : Replies b x (b.respond x) := by
  by_cases active : (b.exchange x).status = .active
  · obtain ready | ⟨why, unreturnable⟩ := Exchange.returnable_cases active
    · obtain ⟨b', he, settings, returned, answer⟩ := respond_of_ready hx ready
      rw [answer]
      split
      · next persists =>
        have back : HandedBack b x b' := ⟨ready, persists_later he settings hx ▸ persists,
          Nat.lt_of_lt_of_le hx he.size_le, returned ▸ .refl⟩
        exact (back.evolves (Calls.persist b' x).evolves).replied _
      · exact .answered
    · rw [respond_of_unreturnable hx active unreturnable]
      exact .refused active unreturnable
  · unfold respond
    dsimp only
    rw [if_pos (Status.isTerminal_iff.2 active)]
    exact .answered

end

/-- A send by the provider is a reply. -/
theorem send_of_provider (owner : (b.exchange x).owner = .provider) : b.send x = b.respond x := by
  unfold send
  dsimp only
  split
  · next ended =>
    unfold respond
    dsimp only
    rw [if_pos ended]
  · rfl

theorem Responds.replies {r : Bus × Turn Sending SendResult} (hx : x < b₀.exchanges.size)
    (h : Responds b₀ x r) : Replies b₀ x r := by
  induction h with
  | respond => exact respond_replies hx
  | send owner =>
    rw [send_of_provider owner]
    exact respond_replies hx
  | resume _ others ih =>
    cases ih with
    | writing back =>
      exact ((back.evolves others).evolves (Calls.resumeAccess _ _).evolves).replied _

/-! ### What an error leaves -/

namespace HandedBack

/-- Those who wait for the reply are woken, however long ago they looked. -/
theorem holds_reply (h : HandedBack b₀ x b) (seen : Progress) :
    b.holds (.exchange x .reply seen) = true := by
  have replied : b.reached x .reply = true := Exchange.isReplied_of_returned h.leads
  rw [holds, replied, Bool.true_or]

/-- There is no second time. -/
theorem respond_again (h : HandedBack b₀ x b) (active : (b.exchange x).status = .active) :
    b.respond x = (b, .ended (.error (.exchange
      (.illegalTransition (b₀.exchange x).id .notDelivered)))) := by
  obtain ⟨owner, -, -⟩ := ((Exchange.settled_returned h.ready).leads h.leads).resolve_left
    fun ended => ended active
  have elsewhere : (b.exchange x).isDelivered = false := by simp [Exchange.isDelivered, owner]
  rw [respond_of_unreturnable h.lt_size active (.notDelivered elsewhere), h.leads.onward.id_eq]
  rfl

end HandedBack

/-- What is to be said of a reply that failed: refused, or handed back and not written down. -/
inductive Fails (b₀ : Bus) (x : Nat) (b : Bus) : RouterError → Prop
  | refused {why : Refusal} (active : (b₀.exchange x).status = .active)
      (unreturnable : (b₀.exchange x).Unreturnable why) (same : b = b₀) :
    Fails b₀ x b (.exchange (.illegalTransition (b₀.exchange x).id why))
  | unwritten {e : StoreError} (ready : (b₀.exchange x).replyReady = true)
      (persists : b₀.persists x = true)
      (first : (b₀.respond x).1.exchange x = (b₀.exchange x).returned)
      (since : (b₀.exchange x).returned.Leads (b.exchange x))
      (woken : ∀ seen, b.holds (.exchange x .reply seen) = true)
      (again : (b.exchange x).status = .active → b.respond x = (b, .ended (.error (.exchange
        (.illegalTransition (b₀.exchange x).id .notDelivered))))) :
    Fails b₀ x b (.store e)

/-- Whatever the store does and whatever others do meanwhile, these are the errors of a reply. -/
theorem respond_fails (hx : x < b₀.exchanges.size) (h : Responds b₀ x (b, .ended (.error e))) :
    Fails b₀ x b e := by
  cases h.replies hx with
  | refused active unreturnable => exact .refused active unreturnable rfl
  | unwritten back =>
    exact .unwritten back.ready back.persists (exchange_respond hx back.ready) back.leads
      back.holds_reply back.respond_again

/-- A bus that keeps exchanges in a store which refuses to write. Its one exchange is with the
provider and has its reply. -/
def refusingBus : Bus :=
  { Bus.new .first id ⟨true, 1000, 1, some 0⟩ with
    stores := [{ Store.inMemory "main" with
      shelf := .memory (Memory.empty.refuse .put (some "disk full")) }]
    exchanges := #[{ (default : Exchange) with
      id := "order-1", pattern := .inOut, owner := .provider, hops := 1, output := some .empty
      published := ⟨.active, .provider, 1⟩ }] }

theorem respond_refusingBus : refusingBus.respond 0 = ((refusingBus.respond 0).1,
    .ended (.error (.store (.write "order-1" (.other "disk full"))))) := rfl

theorem respond_fails_refusingBus : 0 < refusingBus.exchanges.size ∧ ∃ b,
    refusingBus.Responds 0
      (b, .ended (.error (.store (.write "order-1" (.other "disk full"))))) ∧
    refusingBus.Fails 0 b (.store (.write "order-1" (.other "disk full"))) := by
  have responds : refusingBus.Responds 0 (refusingBus.respond 0) := .respond
  rw [respond_refusingBus] at responds
  exact ⟨Nat.one_pos, _, responds, respond_fails Nat.one_pos responds⟩

/-- The reply fails, and the exchange is back with the consumer, where it was with the provider; who
waits for the reply is woken by it. -/
theorem not_kept_refusingBus :
    (refusingBus.respond 0).2 = .ended (.error (.store (.write "order-1" (.other "disk full")))) ∧
    refusingBus.progress 0 = ⟨.active, .provider, 1⟩ ∧
    (refusingBus.respond 0).1.progress 0 = ⟨.active, .consumer, 2⟩ ∧
    refusingBus.holds (.exchange 0 .reply (refusingBus.progress 0)) = false ∧
    (refusingBus.respond 0).1.holds (.exchange 0 .reply (refusingBus.progress 0)) = true :=
  ⟨rfl, rfl, rfl, rfl, rfl⟩

end Bus

end ServiceBus
