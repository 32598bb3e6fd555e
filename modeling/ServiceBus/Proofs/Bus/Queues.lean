import ServiceBus.Proofs.Bus.Traffic
import ServiceBus.Proofs.Bus.Turns

/-!
# What becomes of queues

Exchanges leave a queue at its front and come into it at its end. From `b` to `b'` nobody has come
in when `b.Takes b'`: accepting, connecting, closing and failing only take (`Step.takes`). It is
sends alone that put an exchange in.
-/

namespace ServiceBus
namespace Bus
variable {b b' b'' : Bus} {x q : Nat}

theorem queue_setQueue (b : Bus) (q r : Nat) (p : PullQueue) :
    (b.setQueue q p).queue r = if r = q ∧ q < b.queues.length then p else b.queue r := by
  unfold queue setQueue
  by_cases hr : q = r
  · subst hr
    by_cases hq : q < b.queues.length <;> simp [hq]
  · simp [List.getElem?_set_ne hr, Ne.symm hr]

theorem queue_eq_default (h : b.queues.length ≤ q) : b.queue q = default := by
  simp [queue, h]

theorem queue_congr (h : b'.queues = b.queues) (q : Nat) : b'.queue q = b.queue q :=
  congrArg (·[q]?.getD default) h

/-! ### Taking out -/

/-- From `b` to `b'` exchanges have at most been taken out of queues, the oldest first. -/
def Takes (b b' : Bus) : Prop := ∀ q, (b'.queue q).items <:+ (b.queue q).items

namespace Takes

theorem of_eq (h : b'.queues = b.queues) : Takes b b' :=
  fun q => queue_congr h q ▸ List.suffix_rfl

theorem refl (b : Bus) : Takes b b := of_eq rfl

theorem trans (h : Takes b b') (k : Takes b' b'') : Takes b b'' :=
  fun q => (k q).trans (h q)

theorem from_eq (h : Takes b' b'') (e : b'.queues = b.queues) : Takes b b'' := (of_eq e).trans h

theorem setQueue {p : PullQueue} (h : p.items <:+ (b.queue q).items) :
    Takes b (b.setQueue q p) := by
  intro r
  rw [queue_setQueue]
  split
  · next hr => rw [hr.1]; exact h
  · exact List.suffix_rfl

/-- Setting a queue that holds the same. -/
theorem reset {p : PullQueue} (h : p.items = (b.queue q).items) : Takes b (b.setQueue q p) :=
  setQueue (h ▸ List.suffix_rfl)

theorem forgo (b : Bus) (q : Nat) (ticket : Option Nat) : Takes b (b.forgo q ticket) := by
  cases ticket with
  | none => exact refl b
  | some t => exact reset (PullQueue.items_withdraw _ t)

theorem abandonSend (b : Bus) (c : Sending) : Takes b (b.abandonSend c) := by
  cases c with
  | queueing x c q ticket => exact forgo b q (some ticket)
  | _ => exact refl b

theorem leave (b : Bus) (q ticket : Nat) : Takes b (b.leave q ticket) :=
  reset (PullQueue.items_leaveLine _ ticket)

theorem joinLine (b : Bus) (q ticket : Nat) :
    Takes b (b.setQueue q ((b.queue q).joinLine ticket)) :=
  reset (PullQueue.items_joinLine _ ticket)

theorem draw (b : Bus) (q n : Nat) : Takes b (b.draw q n).1 := by
  induction n generalizing b with
  | zero => exact refl b
  | succ n ih =>
    unfold Bus.draw
    split
    · exact refl b
    · next y p hp =>
      have taken : Takes b (b.setQueue q p) :=
        setQueue (PullQueue.items_of_take? hp ▸ List.suffix_cons y p.items)
      dsimp only
      split
      · exact taken.trans (ih _)
      · exact taken

theorem resumeAccept (b : Bus) (a : Accepting) : Takes b (b.resumeAccept a).1 := by
  unfold Bus.resumeAccept
  split
  · exact leave b _ _
  · split
    · exact leave b _ _
    · dsimp only
      have joined := joinLine b a.queue a.ticket
      -- how much is drawn and how the turn ends do not depend on each other
      generalize b.setQueue a.queue ((b.queue a.queue).joinLine a.ticket) = b' at joined
      have drawn : Takes b (if (b'.queue a.queue).mayTake a.ticket then b'.draw a.queue stride
          else (b', none)).1 := by
        split
        · exact joined.trans (draw b' a.queue stride)
        · exact joined
      generalize (if (b'.queue a.queue).mayTake a.ticket then b'.draw a.queue stride
        else (b', none)) = r at drawn
      obtain ⟨b'', found⟩ := r
      dsimp only
      split
      · exact drawn.trans (leave _ _ _)
      · split
        · exact drawn.trans (leave _ _ _)
        · exact drawn
      · exact drawn

theorem accept (b : Bus) (c : ComponentId) (limit : Option Nat) :
    Takes b (b.accept c limit).1 := by
  unfold Bus.accept
  split
  · exact (resumeAccept _ _).from_eq rfl
  · exact refl b

theorem queues_eq_failEach (cause : String) (l : List Nat) (b : Bus) :
    (l.foldl (fun b x => b.failQuietly x cause) b).queues = b.queues := by
  induction l generalizing b with
  | nil => rfl
  | cons x l ih => exact ih _

theorem failQueued (b : Bus) (q : Nat) : Takes b (b.failQueued q) :=
  (setQueue (List.nil_suffix)).trans (of_eq (queues_eq_failEach disconnectedCause (b.queue q).items _))

theorem resumeClosing (b : Bus) (c : Closing) : Takes b (b.resumeClosing c).1 := by
  have joined := joinLine b c.queue c.ticket
  unfold Bus.resumeClosing
  dsimp only
  split
  · exact (joined.trans (failQueued _ c.queue)).trans (leave _ _ _)
  · exact joined

theorem close (b : Bus) (q : Nat) : Takes b (b.close q).1 := (resumeClosing _ _).from_eq rfl

theorem closeDelivery (b : Bus) (d : Delivery) : Takes b (b.closeDelivery d) := by
  cases d with
  | push processor => exact refl b
  | pull q =>
    have closed : Takes b (b.setQueue q { b.queue q with closed := true }) := reset rfl
    unfold Bus.closeDelivery
    dsimp only
    split
    · exact closed.trans (failQueued _ q)
    · exact closed.trans (of_eq rfl)

theorem connect (b : Bus) (c : ComponentId) (d : Delivery) : Takes b (b.connect c d) := by
  unfold Bus.connect
  dsimp only
  split
  · exact (closeDelivery _ _).from_eq rfl
  · exact of_eq rfl

/-- A queue that has been added is empty. -/
theorem addQueue (b : Bus) (capacity : Nat) : Takes b (b.addQueue (.new capacity)).1 := by
  intro q
  have old (h : q ≠ b.queues.length) : (b.addQueue (.new capacity)).1.queue q = b.queue q := by
    rcases Nat.lt_or_gt_of_ne h with h | h
    · simp [Bus.addQueue, queue, List.getElem?_append_left h]
    · rw [queue_eq_default (Nat.le_of_lt h), queue_eq_default (by simp [Bus.addQueue]; omega)]
  by_cases h : q = b.queues.length
  · subst h
    simp [Bus.addQueue, queue, PullQueue.new]
  · exact old h ▸ List.suffix_rfl

theorem connectQueue (b : Bus) (c : ComponentId) : Takes b (b.connectQueue c) :=
  (addQueue b b.settings.queueCapacity).trans (connect _ c _)

theorem disconnect (b : Bus) (c : ComponentId) : Takes b (b.disconnect c).1 := by
  unfold Bus.disconnect
  split
  · exact refl b
  · exact (closeDelivery _ _).from_eq rfl

theorem disconnectAll (b : Bus) : Takes b b.disconnectAll := by
  unfold Bus.disconnectAll
  generalize b.components.keys = l
  induction l generalizing b with
  | nil => exact refl b
  | cons c l ih => exact (disconnect b c).trans (ih _)

theorem queues_eq_failAll (cause : String) (l : List Nat) (b : Bus) :
    (b.failAll cause l).1.queues = b.queues := by
  induction l generalizing b with
  | nil => rfl
  | cons x l ih => exact ih _

theorem failInFlight (b : Bus) (cause : String) : Takes b (b.failInFlight cause).1 :=
  of_eq (queues_eq_failAll cause b.inFlight.values b)

theorem stop (b : Bus) : Takes b b.stop := (disconnectAll _).from_eq rfl

theorem halt (b : Bus) : Takes b b.halt := (stop b).trans (of_eq rfl)

theorem drain (b : Bus) (d : Draining) : Takes b (b.drain d).1 := by
  unfold Bus.drain
  split
  · exact refl b
  · split <;> exact refl b

theorem resumeShutdown (b : Bus) (s : ShuttingDown) : Takes b (b.resumeShutdown s).1 := by
  have drained := drain b
  cases s with
  | draining d =>
    unfold Bus.resumeShutdown
    dsimp only
    specialize drained d
    split
    · next e => rwa [e] at drained
    · next e =>
      rw [e] at drained
      exact drained.trans (halt _)
    · next b' e =>
      rw [e] at drained
      have failed := drained.trans (failInFlight b' shutdownCause)
      have settled := failed.trans
        (drain _ ⟨(b'.failInFlight shutdownCause).1.now + settleGrace⟩)
      split
      · next e' => rwa [e'] at settled
      · next e' =>
        rw [e'] at settled
        exact settled.trans (halt _)
  | settling d =>
    unfold Bus.resumeShutdown
    dsimp only
    specialize drained d
    split
    · next e => rwa [e] at drained
    · next e =>
      rw [e] at drained
      exact drained.trans (halt _)

theorem ask {r : Request} (plain : r.isPlain = true) : Takes b (b.ask r).1 := by
  cases r with
  | watch x g limit =>
    show Takes b (b.watch x g limit).1
    unfold watch resumeWatch
    split
    · exact refl b
    · split <;> exact refl b
  | accept c limit => exact accept b c limit
  | connect c d => exact connect b c d
  | connectQueue c => exact connectQueue b c
  | disconnect c => exact disconnect b c
  | drain limit => exact drain b _
  | failInFlight cause => exact failInFlight b cause
  | stop => exact stop b
  | shutdown limit => exact (resumeShutdown b.beginShutdown _).from_eq rfl
  | create | change | beginShutdown | registry => exact of_eq rfl
  | send | respond | retrieve => cases plain

theorem resume {j : Job} (plain : j.isPlain = true) : Takes b (b.resume j).1 := by
  cases j with
  | watching w =>
    show Takes b (b.resumeWatch w).1
    unfold resumeWatch
    split
    · exact refl b
    · split <;> exact refl b
  | accepting a => exact resumeAccept b a
  | draining d => exact drain b d
  | shuttingDown s => exact resumeShutdown b s
  | closing c => exact resumeClosing b c
  | sending | retrieving | tracking | processing => cases plain

theorem abandon (b : Bus) (j : Job) : Takes b (b.abandon j) := by
  cases j with
  | sending c => exact abandonSend b c
  | accepting a => exact leave b _ _
  | _ => exact refl b

end Takes

/-! ### What else leaves queues alone -/

theorem queues_eq_settle (b : Bus) (x run : Nat) (o : Outcome) :
    (b.settle x run o).1.queues = b.queues := by
  unfold settle
  split
  · split <;> next e => exact congrArg (·.1.queues) e.symm
  · dsimp only
    split
    · rfl
    · split <;> rfl

theorem queues_eq_finish (b : Bus) (x run : Nat) (awaited : Bool) (o : Outcome) :
    (b.finish x run awaited o).queues = b.queues := by
  unfold finish
  split
  · rfl
  · split
    · rfl
    · exact queues_eq_settle b x run _

theorem queues_eq_awaitProcessor (b : Bus) (x run deadline : Nat) :
    (b.awaitProcessor x run deadline).1.queues = b.queues := by
  unfold awaitProcessor
  split
  · next o _ =>
    have settled := queues_eq_settle b x run o
    split <;> next e => rwa [e] at settled
  · split
    · rfl
    · split <;> rfl

theorem queues_eq_awaitReply (b : Bus) (x deadline : Nat) :
    (b.awaitReply x deadline).1.queues = b.queues := by
  unfold awaitReply
  split
  · rfl
  · split <;> rfl

theorem queues_eq_queued (b : Bus) (x : Nat) : (b.queued x).1.queues = b.queues := by
  unfold queued
  split
  · exact queues_eq_awaitReply b x _
  · rfl

end Bus

/-! ### Steps -/

namespace Traffic
variable {s s' : Traffic} {d : Deed}

/-- A step that only stirs exchanges takes at most. -/
theorem Step.takes (h : s.Step d s') (plain : d.isPlain = true) : s.bus.Takes s'.bus := by
  cases h with
  | @ask r proper =>
    cases r with
    | send | respond | retrieve => cases plain
    | _ => exact Bus.Takes.ask rfl
  | @take l before others launched =>
    cases l with
    | tracker | processor => cases plain
    | closer q => exact (Bus.Takes.close _ q).from_eq rfl
  | @resume j others job =>
    cases j with
    | sending | retrieving | tracking => cases plain
    | processing => exact .refl _
    | _ => exact .resume rfl
  | abandon => exact .abandon _ _
  | finish | serve => cases plain
  | pass => exact .of_eq rfl

end Traffic
end ServiceBus
