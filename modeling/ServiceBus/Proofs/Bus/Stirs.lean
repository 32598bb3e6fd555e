import ServiceBus.Bus.Finish
import ServiceBus.Bus.Send
import ServiceBus.Proofs.Exchange.Onward

/-!
# What a turn leaves alone

`Evolves b b'`: from `b` to `b'` exchanges have been added and changed, and nothing else has
happened to them. `Stirs b b'` says more: none of them has changed hands, and the ledger of the bus,
what it keeps and owes, is the same. Only sends, trackers, the ends of processors and calls on
stores do more than stir.
-/

namespace ServiceBus

/-- Whether the change hands the exchange to the other party, which only a bus does. -/
def Change.isHandover : Change → Bool
  | .dispatch _ | .handBack => true
  | _ => false

theorem Exchange.hops_change (x : Exchange) {c : Change} (hc : c.isHandover = false) :
    (x.change c).1.hops = x.hops := by
  rcases x.change_fst_cases c with h | ⟨-, y, hy, h⟩ <;> rw [h]
  cases hy <;> first | rfl | cases hc

/-- Whether somebody has yet to follow an exchange or to work on it. -/
def Launch.isDuty : Launch → Bool
  | .tracker .. | .processor .. => true
  | .closer _ => false

/-- What a bus keeps beside its exchanges and what it owes them; only sends, trackers, the ends of
processors and calls on stores change it. -/
structure Ledger where
  settings : Settings
  inFlight : Table String Nat
  stores : List Store
  files : Tree
  asked : Nat
  served : Nat
  outcomes : Table Nat Outcome
  duties : List Launch

namespace Bus
variable {b b' b'' : Bus} {x : Nat}

structure Evolves (b b' : Bus) : Prop where
  size_le : b.exchanges.size ≤ b'.exchanges.size
  leads : ∀ x, x < b.exchanges.size → (b.exchange x).Leads (b'.exchange x)

namespace Evolves

theorem of_eq (h : b'.exchanges = b.exchanges) : Evolves b b' where
  size_le := Nat.le_of_eq (congrArg Array.size h.symm)
  leads x _ := by
    unfold exchange
    rw [h]
    exact .refl

theorem refl (b : Bus) : Evolves b b := of_eq rfl

theorem trans (h : Evolves b b') (k : Evolves b' b'') : Evolves b b'' where
  size_le := Nat.le_trans h.size_le k.size_le
  leads x hx := (h.leads x hx).trans (k.leads x (Nat.lt_of_lt_of_le hx h.size_le))

theorem from_eq (h : Evolves b' b'') (e : b'.exchanges = b.exchanges) : Evolves b b'' :=
  (of_eq e).trans h

theorem change (b : Bus) (x : Nat) (c : Change) : Evolves b (b.change x c).1 where
  size_le := Nat.le_of_eq (Array.size_setIfInBounds).symm
  leads y hy := by
    by_cases hx : x < b.exchanges.size
    · rw [exchange_change b hx]
      split
      · next h => exact h ▸ Exchange.Leads.refl.change c
      · exact .refl
    · have he : (b.change x c).1.exchanges = b.exchanges :=
        Array.setIfInBounds_eq_of_size_le (Nat.le_of_not_lt hx)
      exact (of_eq he).leads y hy

theorem failQuietly (b : Bus) (x : Nat) (cause : String) : Evolves b (b.failQuietly x cause) :=
  change b x _

theorem addExchange (b : Bus) (e : Exchange) : Evolves b (b.addExchange e).1 where
  size_le := by simp [Bus.addExchange]
  leads x hx := by
    have he : (b.addExchange e).1.exchange x = b.exchange x := by
      simp [Bus.addExchange, exchange, Array.getElem?_push, Nat.ne_of_lt hx]
    rw [he]
    exact .refl

end Evolves

/-! ### Stirring -/

/-- The launched work that is about exchanges. -/
def duties (b : Bus) : List Launch := b.launched.filter Launch.isDuty

def ledger (b : Bus) : Ledger :=
  { settings := b.settings, inFlight := b.inFlight, stores := b.stores, files := b.files
    asked := b.asked, served := b.served, outcomes := b.outcomes, duties := b.duties }

/-- From `b` to `b'` exchanges have been added, changed by their parties and failed, but none has
changed hands, and the ledger is the same. -/
structure Stirs (b b' : Bus) : Prop extends Evolves b b' where
  hops_eq : ∀ x, x < b.exchanges.size → (b'.exchange x).hops = (b.exchange x).hops
  ledger_eq : b'.ledger = b.ledger
  fresh_le : b.fresh ≤ b'.fresh

namespace Stirs

theorem of_eq (he : b'.exchanges = b.exchanges) (hl : b'.ledger = b.ledger)
    (hf : b.fresh ≤ b'.fresh) : Stirs b b' where
  toEvolves := .of_eq he
  hops_eq x _ := by
    unfold exchange
    rw [he]
  ledger_eq := hl
  fresh_le := hf

theorem refl (b : Bus) : Stirs b b := of_eq rfl rfl (Nat.le_refl _)

theorem trans (h : Stirs b b') (k : Stirs b' b'') : Stirs b b'' where
  toEvolves := h.toEvolves.trans k.toEvolves
  hops_eq x hx := (k.hops_eq x (Nat.lt_of_lt_of_le hx h.size_le)).trans (h.hops_eq x hx)
  ledger_eq := k.ledger_eq.trans h.ledger_eq
  fresh_le := Nat.le_trans h.fresh_le k.fresh_le

theorem from_eq (h : Stirs b' b'') (he : b'.exchanges = b.exchanges) (hl : b'.ledger = b.ledger)
    (hf : b'.fresh = b.fresh) : Stirs b b'' :=
  (of_eq he hl (Nat.le_of_eq hf.symm)).trans h

theorem change (b : Bus) (x : Nat) {c : Change} (hc : c.isHandover = false) :
    Stirs b (b.change x c).1 where
  toEvolves := .change b x c
  hops_eq y hy := by
    by_cases hx : x < b.exchanges.size
    · rw [exchange_change b hx]
      split
      · next h => rw [h, Exchange.hops_change _ hc]
      · rfl
    · have he : (b.change x c).1.exchanges = b.exchanges :=
        Array.setIfInBounds_eq_of_size_le (Nat.le_of_not_lt hx)
      unfold exchange
      rw [he]
  ledger_eq := rfl
  fresh_le := Nat.le_refl _

theorem failQuietly (b : Bus) (x : Nat) (cause : String) : Stirs b (b.failQuietly x cause) :=
  change b x rfl

theorem addExchange (b : Bus) (e : Exchange) : Stirs b (b.addExchange e).1 where
  toEvolves := .addExchange b e
  hops_eq x hx := by
    have he : (b.addExchange e).1.exchange x = b.exchange x := by
      simp [Bus.addExchange, exchange, Array.getElem?_push, Nat.ne_of_lt hx]
    rw [he]
  ledger_eq := rfl
  fresh_le := Nat.le_refl _

theorem setQueue (b : Bus) (q : Nat) (p : PullQueue) : Stirs b (b.setQueue q p) :=
  of_eq rfl rfl (Nat.le_refl _)

theorem take (b : Bus) : Stirs b b.take.1 := of_eq rfl rfl (Nat.le_succ _)

theorem closer (b : Bus) (q : Nat) : Stirs b (b.launch (.closer q)) :=
  of_eq rfl (by simp [ledger, duties, launch, Launch.isDuty]) (Nat.le_refl _)

theorem resolveTarget (b : Bus) (x : Nat) : Stirs b (b.resolveTarget x).1 := by
  unfold Bus.resolveTarget
  dsimp only
  split
  · exact of_eq rfl rfl (Nat.le_refl _)
  · exact (failQuietly _ x _).from_eq rfl rfl rfl

theorem forgo (b : Bus) (q : Nat) (ticket : Option Nat) : Stirs b (b.forgo q ticket) := by
  cases ticket <;> exact of_eq rfl rfl (Nat.le_refl _)

theorem awaitReply (b : Bus) (x deadline : Nat) : Stirs b (b.awaitReply x deadline).1 := by
  unfold Bus.awaitReply
  split
  · exact refl b
  · split
    · exact failQuietly b x _
    · exact refl b

theorem queued (b : Bus) (x : Nat) : Stirs b (b.queued x).1 := by
  unfold Bus.queued
  split
  · exact awaitReply b x _
  · exact refl b

theorem enqueue (b : Bus) (x : Nat) (c : ComponentId) (q : Nat) (ticket : Option Nat) :
    Stirs b (b.enqueue x c q ticket).1 := by
  have hf := forgo b q ticket
  unfold Bus.enqueue
  split
  · exact hf.trans (failQuietly _ x _)
  · split
    · exact hf.trans (failQuietly _ x _)
    · split <;> split
      · exact (setQueue b q _).trans (queued _ x)
      · exact (take b).trans (setQueue _ q _)
      · exact (setQueue b q _).trans (queued _ x)
      · exact refl b

theorem abandonSend (b : Bus) (c : Sending) : Stirs b (b.abandonSend c) := by
  cases c <;> exact of_eq rfl rfl (Nat.le_refl _)

/-! ### Accepts and connections -/

theorem draw (b : Bus) (q n : Nat) : Stirs b (b.draw q n).1 := by
  induction n generalizing b with
  | zero => exact refl b
  | succ n ih =>
    unfold Bus.draw
    split
    · exact refl b
    · dsimp only
      split
      · exact (setQueue b q _).trans (ih _)
      · exact setQueue b q _

theorem resumeAccept (b : Bus) (a : Accepting) : Stirs b (b.resumeAccept a).1 := by
  unfold Bus.resumeAccept
  split
  · exact setQueue b _ _
  · split
    · exact setQueue b _ _
    · dsimp only
      have hj := setQueue b a.queue ((b.queue a.queue).joinLine a.ticket)
      generalize b.setQueue a.queue ((b.queue a.queue).joinLine a.ticket) = b' at hj
      have hd : Stirs b (if (b'.queue a.queue).mayTake a.ticket then b'.draw a.queue stride
          else (b', none)).1 := by
        split
        · exact hj.trans (draw b' a.queue stride)
        · exact hj
      generalize (if (b'.queue a.queue).mayTake a.ticket then b'.draw a.queue stride
        else (b', none)) = drawn at hd
      obtain ⟨b'', found⟩ := drawn
      dsimp only
      split
      · exact hd.trans (setQueue _ _ _)
      · split
        · exact hd.trans (setQueue _ _ _)
        · exact hd
      · exact hd

theorem accept (b : Bus) (c : ComponentId) (limit : Option Nat) :
    Stirs b (b.accept c limit).1 := by
  unfold Bus.accept
  split
  · exact (take b).trans (resumeAccept _ _)
  · exact refl b

theorem failEach (cause : String) (l : List Nat) (b : Bus) :
    Stirs b (l.foldl (fun b x => b.failQuietly x cause) b) := by
  induction l generalizing b with
  | nil => exact refl b
  | cons x l ih => exact (failQuietly b x cause).trans (ih _)

theorem failQueued (b : Bus) (q : Nat) : Stirs b (b.failQueued q) :=
  (setQueue b q _).trans (failEach disconnectedCause (b.queue q).items _)

theorem resumeClosing (b : Bus) (c : Closing) : Stirs b (b.resumeClosing c).1 := by
  have hj := setQueue b c.queue ((b.queue c.queue).joinLine c.ticket)
  unfold Bus.resumeClosing
  dsimp only
  split
  · exact (hj.trans (failQueued _ c.queue)).trans (setQueue _ _ _)
  · exact hj

theorem close (b : Bus) (q : Nat) : Stirs b (b.close q).1 := (take b).trans (resumeClosing _ _)

theorem closeDelivery (b : Bus) (d : Delivery) : Stirs b (b.closeDelivery d) := by
  cases d with
  | push processor => exact refl b
  | pull q =>
    unfold Bus.closeDelivery
    dsimp only
    split
    · exact (setQueue b q _).trans (failQueued _ q)
    · exact (setQueue b q _).trans (closer _ q)

theorem connect (b : Bus) (c : ComponentId) (d : Delivery) : Stirs b (b.connect c d) := by
  have hi : Stirs b { b with components := b.components.insert c d } :=
    of_eq rfl rfl (Nat.le_refl _)
  unfold Bus.connect
  dsimp only
  split
  · exact hi.trans (closeDelivery _ _)
  · exact hi

theorem connectQueue (b : Bus) (c : ComponentId) : Stirs b (b.connectQueue c) :=
  (connect (b.addQueue (.new b.settings.queueCapacity)).1 c _).from_eq rfl rfl rfl

theorem disconnect (b : Bus) (c : ComponentId) : Stirs b (b.disconnect c).1 := by
  unfold Bus.disconnect
  split
  · exact refl b
  · exact (closeDelivery _ _).from_eq rfl rfl rfl

theorem disconnectAll (b : Bus) : Stirs b b.disconnectAll := by
  unfold Bus.disconnectAll
  generalize b.components.keys = l
  induction l generalizing b with
  | nil => exact refl b
  | cons c l ih => exact (disconnect b c).trans (ih _)

/-! ### The end -/

theorem failAll (cause : String) (l : List Nat) (b : Bus) : Stirs b (b.failAll cause l).1 := by
  induction l generalizing b with
  | nil => exact refl b
  | cons x l ih => exact (change b x (c := .fail cause) rfl).trans (ih _)

theorem failInFlight (b : Bus) (cause : String) : Stirs b (b.failInFlight cause).1 :=
  failAll cause b.inFlight.values b

theorem stop (b : Bus) : Stirs b b.stop :=
  (disconnectAll { b with closing := true, stopped := true }).from_eq rfl rfl rfl

theorem halt (b : Bus) : Stirs b b.halt := (stop b).trans (of_eq rfl rfl (Nat.le_refl _))

theorem drain (b : Bus) (d : Draining) : Stirs b (b.drain d).1 := by
  unfold Bus.drain
  split
  · exact refl b
  · split <;> exact refl b

theorem resumeShutdown (b : Bus) (s : ShuttingDown) : Stirs b (b.resumeShutdown s).1 := by
  have hd := drain b
  cases s with
  | draining d =>
    unfold Bus.resumeShutdown
    dsimp only
    specialize hd d
    split
    · next e => rwa [e] at hd
    · next e =>
      rw [e] at hd
      exact hd.trans (halt _)
    · next b' e =>
      rw [e] at hd
      have hf := hd.trans (failInFlight b' shutdownCause)
      have hs := hf.trans (drain _ ⟨(b'.failInFlight shutdownCause).1.now + settleGrace⟩)
      split
      · next e' => rwa [e'] at hs
      · next e' =>
        rw [e'] at hs
        exact hs.trans (halt _)
  | settling d =>
    unfold Bus.resumeShutdown
    dsimp only
    specialize hd d
    split
    · next e => rwa [e] at hd
    · next e =>
      rw [e] at hd
      exact hd.trans (halt _)

theorem shutdown (b : Bus) (limit : Nat) : Stirs b (b.shutdown limit).1 :=
  (resumeShutdown b.beginShutdown _).from_eq rfl rfl rfl

end Stirs

end ServiceBus.Bus
