import ServiceBus.Proofs.Bus.Scenes

/-!
# Connections, and the lines at their queues

The counterpart of `Step.feeds` for those who do not send. Accepting draws exchanges out of a queue up
to the first that has not ended (`accepts`), and all the others either leave a queue alone or fail
everything in it (`Clears`). Of the rest of a bus only connecting, the registry, the clock, the end of a
container and the picks of the selector change anything; `Outlined` says what.
-/

namespace ServiceBus
namespace Bus
variable {b b' b'' : Bus} {x q : Nat}

theorem failAll_fst (cause : String) (l : List Nat) (b : Bus) :
    (b.failAll cause l).1 = l.foldl (fun b x => b.failQuietly x cause) b := by
  induction l generalizing b with
  | nil => rfl
  | cons x l ih => exact ih _

theorem fresh_failEach (cause : String) (l : List Nat) (b : Bus) :
    (l.foldl (fun b x => b.failQuietly x cause) b).fresh = b.fresh := by
  induction l generalizing b with
  | nil => rfl
  | cons x l ih => exact ih _

/-! ### Turns in a line -/

/-- From `b` to `b'` the outline, what is connected and what is launched stand as they were. -/
structure Stands (b b' : Bus) : Prop extends Evolves b b' where
  outline_eq : b'.outline = b.outline
  length_eq : b'.queues.length = b.queues.length
  closed_eq : ∀ q, (b'.queue q).closed = (b.queue q).closed
  launched_eq : b'.launched = b.launched
  fresh_le : b.fresh ≤ b'.fresh

namespace Stands

theorem of_queues (he : Evolves b b') (outline : b'.outline = b.outline)
    (queues : b'.queues = b.queues) (launched : b'.launched = b.launched)
    (fresh : b.fresh ≤ b'.fresh) : Stands b b' where
  toEvolves := he
  outline_eq := outline
  length_eq := congrArg List.length queues
  closed_eq q := congrArg PullQueue.closed (queue_congr queues q)
  launched_eq := launched
  fresh_le := fresh

theorem refl (b : Bus) : Stands b b := of_queues (.refl b) rfl rfl rfl (Nat.le_refl _)

theorem trans (h : Stands b b') (k : Stands b' b'') : Stands b b'' where
  toEvolves := h.toEvolves.trans k.toEvolves
  outline_eq := k.outline_eq.trans h.outline_eq
  length_eq := k.length_eq.trans h.length_eq
  closed_eq q := (k.closed_eq q).trans (h.closed_eq q)
  launched_eq := k.launched_eq.trans h.launched_eq
  fresh_le := Nat.le_trans h.fresh_le k.fresh_le

theorem setQueue {p : PullQueue} (h : p.closed = (b.queue q).closed) :
    Stands b (b.setQueue q p) where
  toEvolves := .of_eq rfl
  outline_eq := rfl
  length_eq := List.length_set
  closed_eq r := by
    rw [queue_setQueue]
    split
    · next e => rw [h, e.1]
    · rfl
  launched_eq := rfl
  fresh_le := Nat.le_refl _

theorem take (b : Bus) : Stands b b.take.1 := of_queues (.of_eq rfl) rfl rfl rfl (Nat.le_succ _)

theorem change (b : Bus) (x : Nat) (c : Change) : Stands b (b.change x c).1 :=
  of_queues (.change b x c) rfl rfl rfl (Nat.le_refl _)

theorem failEach (cause : String) (l : List Nat) (b : Bus) :
    Stands b (l.foldl (fun b x => b.failQuietly x cause) b) := by
  induction l generalizing b with
  | nil => exact refl b
  | cons x l ih => exact (change b x _).trans (ih _)

theorem failAll (cause : String) (l : List Nat) (b : Bus) : Stands b (b.failAll cause l).1 := by
  rw [failAll_fst]
  exact failEach cause l b

theorem failQueued (b : Bus) (q : Nat) : Stands b (b.failQueued q) :=
  (setQueue (p := { b.queue q with items := [] }) rfl).trans (failEach disconnectedCause _ _)

end Stands

/-- Somebody gets in line, or has been there. -/
def join (b : Bus) (q ticket : Nat) : Bus := b.setQueue q ((b.queue q).joinLine ticket)

theorem Stands.join (b : Bus) (q ticket : Nat) : Stands b (b.join q ticket) := by
  refine .setQueue ?_
  unfold PullQueue.joinLine
  split <;> rfl

theorem Stands.leave (b : Bus) (q ticket : Nat) : Stands b (b.leave q ticket) := .setQueue rfl

/-! ### Drawing -/

/-- From `b` to `b'` the exchanges at the front of queue `q` that had ended have been taken out, and
after them those in `got`. -/
structure Draws (b : Bus) (q : Nat) (got : List Nat) (b' : Bus) : Prop extends Stands b b' where
  exchanges_eq : b'.exchanges = b.exchanges
  acceptors_eq : ∀ r, (b'.queue r).acceptors = (b.queue r).acceptors
  others_eq : ∀ r, r ≠ q → (b'.queue r).items = (b.queue r).items
  drawn : ∃ gone, (b.queue q).items = gone ++ got ++ (b'.queue q).items ∧
    ∀ x ∈ gone, (b.exchange x).status ≠ .active
  active : ∀ x ∈ got, (b.exchange x).status = .active

theorem Draws.refl (b : Bus) (q : Nat) : Draws b q [] b :=
  { Stands.refl b with
    exchanges_eq := rfl
    acceptors_eq := fun _ => rfl
    others_eq := fun _ _ => rfl
    drawn := ⟨[], rfl, by simp⟩
    active := by simp }

theorem lt_length_of_take? {p : PullQueue} (h : (b.queue q).take? = some (x, p)) :
    q < b.queues.length := by
  refine Nat.lt_of_not_le fun hq => ?_
  rw [queue_eq_default hq] at h
  cases h

/-- The front of a queue is taken out. -/
theorem Stands.taken {p : PullQueue} (h : (b.queue q).take? = some (x, p)) :
    Stands b (b.setQueue q p) ∧ (∀ r, ((b.setQueue q p).queue r).acceptors = (b.queue r).acceptors) ∧
      (∀ r, r ≠ q → ((b.setQueue q p).queue r).items = (b.queue r).items) ∧
      (b.queue q).items = x :: ((b.setQueue q p).queue q).items := by
  have line := PullQueue.line_of_take? h
  refine ⟨.setQueue (congrArg Prod.fst line), fun r => ?_, fun r ne => ?_, ?_⟩
  · exact acceptors_eq (scene_setQueue line) r
  · rw [queue_setQueue, if_neg fun e => ne e.1]
  · rw [queue_setQueue, if_pos ⟨rfl, lt_length_of_take? h⟩]
    exact PullQueue.items_of_take? h

theorem draws (b : Bus) (q n : Nat) : Draws b q (b.draw q n).2.toList (b.draw q n).1 := by
  induction n generalizing b with
  | zero => exact .refl b q
  | succ n ih =>
    unfold Bus.draw
    split
    · exact .refl b q
    · next x p h =>
      obtain ⟨stands, acceptors, others, items⟩ := Stands.taken h
      dsimp only
      split
      · next ended =>
        have rest := ih (b.setQueue q p)
        obtain ⟨gone, drawn, gone_ended⟩ := rest.drawn
        refine { stands.trans rest.toStands with
          exchanges_eq := rest.exchanges_eq
          acceptors_eq := fun r => (rest.acceptors_eq r).trans (acceptors r)
          others_eq := fun r ne => (rest.others_eq r ne).trans (others r ne)
          drawn := ⟨x :: gone, ?_,
            List.forall_mem_cons.2 ⟨Status.isTerminal_iff.1 ended, gone_ended⟩⟩
          active := rest.active }
        rw [items, drawn]
        rfl
      · next going =>
        exact { stands with
          exchanges_eq := rfl
          acceptors_eq := acceptors
          others_eq := others
          drawn := ⟨[], items, by simp⟩
          active := by
            intro y hy
            obtain rfl := List.mem_singleton.1 hy
            exact Status.isTerminal_eq_false_iff.1 (Bool.eq_false_iff.2 going) }

/-- What an acceptor's turn comes to, once it is in line. -/
inductive Accepts (b : Bus) (a : Accepting) : Bus × Turn Accepting AcceptResult → Prop
  | refused {e : RouterError} : Accepts b a (b.leave a.queue a.ticket, .ended (.error e))
  | takes {x : Nat} {b' : Bus} (opened : (b.queue a.queue).closed = false)
    (draws : Draws (b.join a.queue a.ticket) a.queue [x] b') :
    Accepts b a (b'.leave a.queue a.ticket, .ended (.ok x))
  | expires {e : RouterError} {b' : Bus} (draws : Draws (b.join a.queue a.ticket) a.queue [] b') :
    Accepts b a (b'.leave a.queue a.ticket, .ended (.error e))
  | waits {b' : Bus} (draws : Draws (b.join a.queue a.ticket) a.queue [] b') :
    Accepts b a (b', .waiting a)

theorem accepts (b : Bus) (a : Accepting) : Accepts b a (b.resumeAccept a) := by
  unfold resumeAccept
  split
  · exact .refused
  · split
    · exact .refused
    · next closed =>
      have opened := Bool.eq_false_iff.2 closed
      have joined : b.setQueue a.queue ((b.queue a.queue).joinLine a.ticket) =
        b.join a.queue a.ticket := rfl
      dsimp only
      rw [joined]
      -- how much is drawn and how the turn ends do not depend on each other
      generalize hr : (if ((b.join a.queue a.ticket).queue a.queue).mayTake a.ticket then
        (b.join a.queue a.ticket).draw a.queue stride else (b.join a.queue a.ticket, none)) = r
      have drawn : Draws (b.join a.queue a.ticket) a.queue r.2.toList r.1 := by
        rw [← hr]
        split
        · exact draws _ _ stride
        · exact .refl _ _
      obtain ⟨b', found⟩ := r
      dsimp only
      split
      · exact .takes opened drawn
      · split
        · exact .expires drawn
        · exact .waits drawn
      · exact .waits drawn

/-! ### Failing what is queued -/

/-- From `b` to `b'` no queue has been opened again, and each has been left alone or is empty, with
all that was in it ended. -/
structure Clears (b b' : Bus) : Prop extends Evolves b b' where
  length_le : b.queues.length ≤ b'.queues.length
  closed_le : ∀ q, (b.queue q).closed = true → (b'.queue q).closed = true
  items : ∀ q, (b'.queue q).items = (b.queue q).items ∨
    ((b'.queue q).items = [] ∧
      ∀ x ∈ (b.queue q).items, x < b.exchanges.size → (b'.exchange x).status ≠ .active)

namespace Clears

theorem of_queues (he : Evolves b b') (queues : b'.queues = b.queues) : Clears b b' where
  toEvolves := he
  length_le := Nat.le_of_eq (congrArg List.length queues.symm)
  closed_le q closed := by rwa [queue_congr queues]
  items q := .inl (by rw [queue_congr queues])

theorem trans (h : Clears b b') (k : Clears b' b'') : Clears b b'' where
  toEvolves := h.toEvolves.trans k.toEvolves
  length_le := Nat.le_trans h.length_le k.length_le
  closed_le q closed := k.closed_le q (h.closed_le q closed)
  items q := by
    obtain same | ⟨empty, ended⟩ := h.items q
    · obtain same' | ⟨empty', ended'⟩ := k.items q
      · exact .inl (same'.trans same)
      · refine .inr ⟨empty', fun x hx there => ?_⟩
        exact ended' x (same ▸ hx) (Nat.lt_of_lt_of_le there h.size_le)
    · refine .inr ⟨?_, fun x hx there => mt k.active_before (ended x hx there)⟩
      obtain same' | ⟨empty', -⟩ := k.items q
      · rw [same', empty]
      · exact empty'

theorem empty (h : Clears b b') (empty : (b.queue q).items = []) : (b'.queue q).items = [] := by
  obtain same | ⟨empty', -⟩ := h.items q
  · rw [same, empty]
  · exact empty'

theorem reset {p : PullQueue} (closed : (b.queue q).closed = true → p.closed = true)
    (items : p.items = (b.queue q).items) : Clears b (b.setQueue q p) where
  toEvolves := .of_eq rfl
  length_le := Nat.le_of_eq List.length_set.symm
  closed_le r := by
    rw [queue_setQueue]
    split
    · next e => exact e.1 ▸ closed
    · exact id
  items r := by
    rw [queue_setQueue]
    split
    · next e => exact .inl (e.1 ▸ items)
    · exact .inl rfl

theorem join (b : Bus) (q ticket : Nat) : Clears b (b.join q ticket) := by
  refine reset (fun closed => ?_) (PullQueue.items_joinLine _ ticket)
  unfold PullQueue.joinLine
  split <;> exact closed

theorem leave (b : Bus) (q ticket : Nat) : Clears b (b.leave q ticket) := reset id rfl

end Clears

/-! ### Connecting and disconnecting -/

/-- From `b` to `b'` connections have come and gone. Of the queues that have been closed on the way,
each is empty or a closer has been launched for it. -/
structure Rewires (b b' : Bus) : Prop extends Clears b b' where
  acceptors_eq : ∀ q, (b'.queue q).acceptors = (b.queue q).acceptors
  fresh_eq : b'.fresh = b.fresh
  launched_le : ∀ l ∈ b.launched, l ∈ b'.launched
  closers : ∀ q, .closer q ∈ b'.launched → .closer q ∈ b.launched ∨ q < b'.queues.length
  closes : ∀ q, (b'.queue q).closed = true →
    (b.queue q).closed = true ∨ (b'.queue q).items = [] ∨ .closer q ∈ b'.launched

namespace Rewires

theorem of_queues (he : Evolves b b') (queues : b'.queues = b.queues) (fresh : b'.fresh = b.fresh)
    (launched : b'.launched = b.launched) : Rewires b b' where
  toClears := .of_queues he queues
  acceptors_eq q := by rw [queue_congr queues]
  fresh_eq := fresh
  launched_le _ hl := launched ▸ hl
  closers _ hl := .inl (launched ▸ hl)
  closes q closed := .inl (by rwa [queue_congr queues] at closed)

theorem refl (b : Bus) : Rewires b b := of_queues (.refl b) rfl rfl rfl

theorem trans (h : Rewires b b') (k : Rewires b' b'') : Rewires b b'' where
  toClears := h.toClears.trans k.toClears
  acceptors_eq q := (k.acceptors_eq q).trans (h.acceptors_eq q)
  fresh_eq := k.fresh_eq.trans h.fresh_eq
  launched_le l hl := k.launched_le l (h.launched_le l hl)
  closers q hl := by
    obtain hl | there := k.closers q hl
    · exact (h.closers q hl).imp_right fun there => Nat.lt_of_lt_of_le there k.length_le
    · exact .inr there
  closes q closed := by
    obtain closed | rest := k.closes q closed
    · obtain closed | empty | launched := h.closes q closed
      · exact .inl closed
      · exact .inr (.inl (k.empty empty))
      · exact .inr (.inr (k.launched_le _ launched))
    · exact .inr rest

theorem reset {p : PullQueue} (line : p.line = (b.queue q).line)
    (items : p.items = (b.queue q).items) : Rewires b (b.setQueue q p) where
  toClears := .reset (fun closed => (congrArg Prod.fst line).trans closed) items
  acceptors_eq := Bus.acceptors_eq (scene_setQueue line)
  fresh_eq := rfl
  launched_le _ hl := hl
  closers _ hl := .inl hl
  closes r closed := .inl (by rwa [closed_eq (scene_setQueue line)] at closed)

theorem ended_failEach (cause : String) (l : List Nat) (b : Bus) (hx : x ∈ l)
    (there : x < b.exchanges.size) :
    ((l.foldl (fun b x => b.failQuietly x cause) b).exchange x).status ≠ .active := by
  induction l generalizing b with
  | nil => cases hx
  | cons y l ih =>
    rcases List.mem_cons.1 hx with rfl | hx
    · have rest := Stands.failEach cause l (b.failQuietly x cause)
      exact mt rest.active_before (terminal_failQuietly there cause)
    · exact ih _ hx (Nat.lt_of_lt_of_le there (Evolves.failQuietly b y cause).size_le)

theorem queue_failQueued (b : Bus) (q r : Nat) : (b.failQueued q).queue r =
    if r = q ∧ q < b.queues.length then { b.queue q with items := [] } else b.queue r := by
  have queues := Takes.queues_eq_failEach disconnectedCause (b.queue q).items
    (b.setQueue q { b.queue q with items := [] })
  exact (queue_congr queues r).trans (queue_setQueue b q r _)

theorem items_failQueued (b : Bus) (q : Nat) : ((b.failQueued q).queue q).items = [] := by
  rw [queue_failQueued]
  split
  · rfl
  · next missing =>
    rw [queue_eq_default (Nat.le_of_not_lt fun there => missing ⟨rfl, there⟩)]
    rfl

theorem failQueued (b : Bus) (q : Nat) : Rewires b (b.failQueued q) := by
  have stands := Stands.failQueued b q
  have launched : ∀ l, l ∈ (b.failQueued q).launched ↔ l ∈ b.launched := fun l => by
    rw [stands.launched_eq]
  refine { stands with
    length_le := Nat.le_of_eq stands.length_eq.symm
    closed_le := fun r closed => (stands.closed_eq r).trans closed
    items := fun r => ?_
    acceptors_eq := fun r => ?_
    fresh_eq := ?_
    launched_le := fun l => (launched l).2
    closers := fun r hl => .inl ((launched _).1 hl)
    closes := fun r closed => .inl ((stands.closed_eq r).symm.trans closed) }
  · by_cases e : r = q
    · subst e
      exact .inr ⟨items_failQueued b r, fun x hx there => ended_failEach _ _ _ hx there⟩
    · rw [queue_failQueued, if_neg fun h => e h.1]
      exact .inl rfl
  · rw [queue_failQueued]
    split
    · next e => rw [e.1]
    · rfl
  · exact fresh_failEach disconnectedCause _ _

theorem closeDelivery (b : Bus) (d : Delivery) : Rewires b (b.closeDelivery d) := by
  cases d with
  | push n => exact refl b
  | pull q =>
    have closed : Clears b (b.setQueue q { b.queue q with closed := true }) :=
      .reset (fun _ => rfl) rfl
    have acceptors (r : Nat) : ((b.setQueue q { b.queue q with closed := true }).queue r).acceptors =
        (b.queue r).acceptors := by
      rw [queue_setQueue]
      split
      · next e => rw [e.1]
      · rfl
    have newly (r : Nat)
        (h : ((b.setQueue q { b.queue q with closed := true }).queue r).closed = true) :
        (b.queue r).closed = true ∨ r = q := by
      rw [queue_setQueue] at h
      split at h
      · next e => exact .inr e.1
      · exact .inl h
    unfold Bus.closeDelivery
    dsimp only
    split
    · have failed := failQueued (b.setQueue q { b.queue q with closed := true }) q
      exact { closed.trans failed.toClears with
        acceptors_eq := fun r => (failed.acceptors_eq r).trans (acceptors r)
        fresh_eq := failed.fresh_eq
        launched_le := failed.launched_le
        closers := failed.closers
        closes := fun r h => by
          obtain h | rest := failed.closes r h
          · obtain old | rfl := newly r h
            · exact .inl old
            · exact .inr (.inl (items_failQueued _ r))
          · exact .inr rest }
    · next occupied =>
      have there : q < b.queues.length := by
        refine Nat.lt_of_not_le fun missing => occupied ?_
        rw [acceptors, queue_eq_default missing]
        rfl
      exact { closed with
        acceptors_eq := acceptors
        fresh_eq := rfl
        launched_le := fun l hl => List.mem_append_left _ hl
        closers := fun r hl => by
          rcases List.mem_append.1 hl with hl | hl
          · exact .inl hl
          · obtain rfl := Launch.closer.inj (List.mem_singleton.1 hl)
            exact .inr (Nat.lt_of_lt_of_eq there List.length_set.symm)
        closes := fun r h => by
          obtain old | rfl := newly r h
          · exact .inl old
          · exact .inr (.inr (List.mem_append_right _ (List.mem_singleton.2 rfl))) }

theorem connect (b : Bus) (c : ComponentId) (d : Delivery) : Rewires b (b.connect c d) := by
  have inserted : Rewires b { b with components := b.components.insert c d } :=
    of_queues (.of_eq rfl) rfl rfl rfl
  unfold Bus.connect
  dsimp only
  split
  · exact inserted.trans (closeDelivery _ _)
  · exact inserted

theorem queue_addQueue (b : Bus) (p : PullQueue) (q : Nat) :
    (b.addQueue p).1.queue q = if q = b.queues.length then p else b.queue q := by
  rcases Nat.lt_trichotomy q b.queues.length with h | h | h
  · rw [if_neg (Nat.ne_of_lt h)]
    simp [Bus.addQueue, queue, List.getElem?_append_left h]
  · rw [if_pos h]
    simp [Bus.addQueue, queue, h]
  · rw [if_neg (Nat.ne_of_gt h), queue_eq_default (Nat.le_of_lt h), queue_eq_default]
    simp only [Bus.addQueue, List.length_append, List.length_singleton]
    omega

theorem addQueue (b : Bus) (capacity : Nat) : Rewires b (b.addQueue (.new capacity)).1 := by
  -- where the queue comes in there has been none, and that counts as empty and open
  have same (q : Nat) : ((b.addQueue (.new capacity)).1.queue q).closed = (b.queue q).closed ∧
      ((b.addQueue (.new capacity)).1.queue q).items = (b.queue q).items ∧
      ((b.addQueue (.new capacity)).1.queue q).acceptors = (b.queue q).acceptors := by
    rw [queue_addQueue]
    split
    · next e =>
      rw [queue_eq_default (Nat.le_of_eq e.symm)]
      exact ⟨rfl, rfl, rfl⟩
    · exact ⟨rfl, rfl, rfl⟩
  exact {
    toEvolves := .of_eq rfl
    length_le := by simp [Bus.addQueue]
    closed_le := fun q closed => (same q).1.trans closed
    items := fun q => .inl (same q).2.1
    acceptors_eq := fun q => (same q).2.2
    fresh_eq := rfl
    launched_le := fun _ hl => hl
    closers := fun _ hl => .inl hl
    closes := fun q closed => .inl ((same q).1.symm.trans closed) }

theorem connectQueue (b : Bus) (c : ComponentId) : Rewires b (b.connectQueue c) :=
  (addQueue b b.settings.queueCapacity).trans (connect _ c _)

theorem disconnect (b : Bus) (c : ComponentId) : Rewires b (b.disconnect c).1 := by
  unfold Bus.disconnect
  split
  · exact refl b
  · have erased : Rewires b { b with components := b.components.erase c } :=
      of_queues (.of_eq rfl) rfl rfl rfl
    exact erased.trans (closeDelivery _ _)

theorem disconnectAll (b : Bus) : Rewires b b.disconnectAll := by
  unfold Bus.disconnectAll
  generalize b.components.keys = l
  induction l generalizing b with
  | nil => exact refl b
  | cons c l ih => exact (disconnect b c).trans (ih _)

theorem failInFlight (b : Bus) (cause : String) : Rewires b (b.failInFlight cause).1 := by
  have stands := Stands.failAll cause b.inFlight.values b
  have fresh : (b.failInFlight cause).1.fresh = b.fresh := by
    rw [Bus.failInFlight, failAll_fst, fresh_failEach]
  exact of_queues stands.toEvolves (Takes.queues_eq_failAll cause _ b) fresh stands.launched_eq

theorem stop (b : Bus) : Rewires b b.stop := by
  have flagged : Rewires b { b with closing := true, stopped := true } :=
    of_queues (.of_eq rfl) rfl rfl rfl
  exact flagged.trans (disconnectAll _)

theorem halt (b : Bus) : Rewires b b.halt :=
  (stop b).trans (of_queues (.of_eq rfl) rfl rfl rfl)

end Rewires

/-- A closer's turn: the line has come to it and the queue is cleared, or it waits. -/
theorem resumeClosing_cases (b : Bus) (c : Closing) :
    b.resumeClosing c =
        ((((b.join c.queue c.ticket).failQueued c.queue).leave c.queue c.ticket), .ended ()) ∨
      b.resumeClosing c = (b.join c.queue c.ticket, .waiting c) := by
  unfold resumeClosing
  dsimp only
  split
  · exact .inl rfl
  · exact .inr rfl

theorem drain_fst (b : Bus) (d : Draining) : (b.drain d).1 = b := by
  unfold drain
  split
  · rfl
  · split <;> rfl

theorem resumeWatch_fst (b : Bus) (w : Watching) : (b.resumeWatch w).1 = b := by
  unfold resumeWatch
  split
  · rfl
  · split <;> rfl

/-- What a turn of a container's shutdown comes to. -/
inductive Shuts (b : Bus) : ShuttingDown → Bus × Turn ShuttingDown Unit → Prop
  | waits {s : ShuttingDown} : Shuts b s (b, .waiting s)
  | drained {d : Draining} (idle : b.inFlight.isEmpty = true) :
    Shuts b (.draining d) (b.halt, .ended ())
  | fails {d d' : Draining} :
    Shuts b (.draining d) ((b.failInFlight shutdownCause).1, .waiting (.settling d'))
  | failed {d : Draining} :
    Shuts b (.draining d) ((b.failInFlight shutdownCause).1.halt, .ended ())
  | settled {d : Draining} : Shuts b (.settling d) (b.halt, .ended ())

theorem shuts (b : Bus) (s : ShuttingDown) : Shuts b s (b.resumeShutdown s) := by
  have drains (b : Bus) (d : Draining) :
      b.drain d = (b, .waiting d) ∨ (b.drain d = (b, .ended true) ∧ b.inFlight.isEmpty = true) ∨
        b.drain d = (b, .ended false) := by
    unfold drain
    split
    · next idle => exact .inr (.inl ⟨rfl, idle⟩)
    · split
      · exact .inr (.inr rfl)
      · exact .inl rfl
  cases s with
  | draining d =>
    unfold resumeShutdown
    dsimp only
    obtain h | ⟨h, idle⟩ | h := drains b d <;> rw [h]
    · exact .waits
    · exact .drained idle
    · dsimp only
      obtain h | ⟨h, -⟩ | h := drains (b.failInFlight shutdownCause).1
        ⟨(b.failInFlight shutdownCause).1.now + settleGrace⟩ <;> rw [h]
      · exact .fails
      · exact .failed
      · exact .failed
  | settling d =>
    unfold resumeShutdown
    dsimp only
    obtain h | ⟨h, -⟩ | h := drains b d <;> rw [h]
    · exact .waits
    · exact .settled
    · exact .settled

theorem Clears.resumeClosing (b : Bus) (c : Closing) : Clears b (b.resumeClosing c).1 := by
  have joined := Clears.join b c.queue c.ticket
  obtain h | h := resumeClosing_cases b c <;> rw [h]
  · exact (joined.trans (Rewires.failQueued _ _).toClears).trans (.leave _ _ _)
  · exact joined

theorem Rewires.resumeShutdown (b : Bus) (s : ShuttingDown) :
    Rewires b (b.resumeShutdown s).1 := by
  have turn := shuts b s
  generalize b.resumeShutdown s = r at turn
  cases turn with
  | waits => exact refl b
  | drained | settled => exact halt b
  | fails => exact failInFlight b _
  | failed => exact (failInFlight b _).trans (halt _)

theorem Rewires.abandonSend (b : Bus) (c : Sending) : Rewires b (b.abandonSend c) := by
  cases c with
  | queueing x c q ticket =>
    exact reset (PullQueue.line_withdraw _ ticket) (PullQueue.items_withdraw _ ticket)
  | _ => exact refl b

/-! ### Outlines -/

theorem outline_closeDelivery (b : Bus) (d : Delivery) :
    (b.closeDelivery d).outline = b.outline := by
  cases d with
  | push n => rfl
  | pull q =>
    unfold closeDelivery
    dsimp only
    split
    · exact (Stands.failQueued _ q).outline_eq
    · rfl

theorem outline_connect (b : Bus) (c : ComponentId) (d : Delivery) :
    (b.connect c d).outline = { b.outline with components := b.components.insert c d } := by
  unfold connect
  dsimp only
  split
  · exact outline_closeDelivery _ _
  · rfl

theorem outline_disconnect (b : Bus) (c : ComponentId) : ∃ cs : Table ComponentId Delivery,
    (∀ k, cs.get? k = if k = c then none else b.components.get? k) ∧
      (b.disconnect c).1.outline = { b.outline with components := cs } := by
  unfold disconnect
  split
  · next none =>
    refine ⟨b.components, fun k => ?_, rfl⟩
    split
    · next e => exact e ▸ none
    · rfl
  · exact ⟨_, fun k => Table.get?_erase _ _ _, outline_closeDelivery _ _⟩

theorem outline_disconnectAll (b : Bus) : ∃ cs : Table ComponentId Delivery,
    (∀ k, cs.get? k = none) ∧ b.disconnectAll.outline = { b.outline with components := cs } := by
  -- whoever is among the keys gone through so far is not connected any more
  have through (l : List ComponentId) (b : Bus) : ∃ cs : Table ComponentId Delivery,
      (∀ k, cs.get? k = if k ∈ l then none else b.components.get? k) ∧
        (l.foldl (fun b c => (b.disconnect c).1) b).outline =
          { b.outline with components := cs } := by
    induction l generalizing b with
    | nil => exact ⟨b.components, by simp, rfl⟩
    | cons c l ih =>
      obtain ⟨cs, first, one⟩ := outline_disconnect b c
      obtain ⟨cs', rest, all⟩ := ih (b.disconnect c).1
      have components : (b.disconnect c).1.components = cs := congrArg Outline.components one
      refine ⟨cs', fun k => ?_, ?_⟩
      · rw [rest, components, first]
        by_cases hc : k = c <;> by_cases hl : k ∈ l <;> simp [hc, hl]
      · show (l.foldl _ (b.disconnect c).1).outline = _
        rw [all, one]
  obtain ⟨cs, get, outline⟩ := through b.components.keys b
  refine ⟨cs, fun k => ?_, outline⟩
  rw [get]
  split
  · rfl
  · next missing =>
    cases h : b.components.get? k with
    | none => rfl
    | some d => exact absurd ((Table.mem_keys_iff _).2 ⟨d, h⟩) missing

theorem outline_stop (b : Bus) : ∃ cs : Table ComponentId Delivery, (∀ k, cs.get? k = none) ∧
    b.stop.outline = { b.outline with components := cs, closing := true, stopped := true } :=
  outline_disconnectAll { b with closing := true, stopped := true }

theorem outline_halt (b : Bus) : ∃ cs : Table ComponentId Delivery, (∀ k, cs.get? k = none) ∧
    b.halt.outline = { b.outline with
      components := cs, closing := true, stopped := true, registry := b.registry.clear } := by
  obtain ⟨cs, get, outline⟩ := outline_stop b
  have registry : b.stop.registry = b.registry := congrArg Outline.registry outline
  refine ⟨cs, get, ?_⟩
  show { b.stop.outline with registry := b.stop.registry.clear } = _
  rw [outline, registry]

/-- A shutdown changes nothing of the outline before the turn at which it returns. -/
theorem outline_resumeShutdown (b : Bus) (u : ShuttingDown) :
    ((b.resumeShutdown u).1.outline = b.outline ∧ (b.resumeShutdown u).2 ≠ .ended ()) ∨
      ∃ cs : Table ComponentId Delivery, (∀ k, cs.get? k = none) ∧
        (b.resumeShutdown u).1.outline = { b.outline with
          components := cs, closing := true, stopped := true, registry := b.registry.clear } := by
  have turn := shuts b u
  have failed := (Stands.failAll shutdownCause b.inFlight.values b).outline_eq
  generalize b.resumeShutdown u = r at turn
  cases turn with
  | waits => exact .inl ⟨rfl, nofun⟩
  | drained | settled => exact .inr (outline_halt b)
  | fails => exact .inl ⟨failed, nofun⟩
  | failed =>
    obtain ⟨cs, get, outline⟩ := outline_halt (b.failInFlight shutdownCause).1
    have registry : (b.failInFlight shutdownCause).1.registry = b.registry :=
      congrArg Outline.registry failed
    refine .inr ⟨cs, get, ?_⟩
    rw [outline, registry, show (b.failInFlight shutdownCause).1.outline = b.outline from failed]

theorem Accepts.stands {a : Accepting} {r : Bus × Turn Accepting AcceptResult}
    (h : Accepts b a r) : Stands b r.1 := by
  have joined := Stands.join b a.queue a.ticket
  cases h with
  | refused => exact .leave b _ _
  | takes _ draws => exact (joined.trans draws.toStands).trans (.leave _ _ _)
  | expires draws => exact (joined.trans draws.toStands).trans (.leave _ _ _)
  | waits draws => exact joined.trans draws.toStands

theorem Stands.accept (b : Bus) (c : ComponentId) (limit : Option Nat) :
    Stands b (b.accept c limit).1 := by
  unfold Bus.accept
  split
  · exact (take b).trans (accepts _ _).stands
  · exact refl b

theorem Stands.resumeClosing (b : Bus) (c : Closing) : Stands b (b.resumeClosing c).1 := by
  have joined := join b c.queue c.ticket
  obtain h | h := resumeClosing_cases b c <;> rw [h]
  · exact (joined.trans (failQueued _ _)).trans (leave _ _ _)
  · exact joined

end Bus

/-! ### Steps -/

/-- Whether the deed is the turn of somebody in a line, or gets somebody into one or out of it. -/
def Deed.isInLine : Deed → Bool
  | .ask (.accept ..) | .resume (.accepting _) | .abandon (.accepting _) | .take (.closer _)
  | .resume (.closing _) => true
  | _ => false

namespace Traffic
variable {s s' : Traffic} {d : Deed}
open Bus

theorem Step.rewires (h : s.Step d s') (plain : d.isPlain = true) (apart : d.isInLine = false) :
    Rewires s.bus s'.bus := by
  cases h with
  | @ask r proper =>
    cases r with
    | create e => exact .of_queues (.addExchange s.bus e) rfl rfl rfl
    | change x c => exact .of_queues (.change s.bus x c) rfl rfl rfl
    | watch x g limit =>
      show Rewires s.bus (s.bus.watch x g limit).1
      rw [watch, resumeWatch_fst]
      exact .refl s.bus
    | connect c d => exact .connect s.bus c d
    | connectQueue c => exact .connectQueue s.bus c
    | disconnect c => exact .disconnect s.bus c
    | drain limit =>
      show Rewires s.bus (s.bus.drain _).1
      rw [drain_fst]
      exact .refl s.bus
    | failInFlight cause => exact .failInFlight s.bus cause
    | stop => exact .stop s.bus
    | shutdown limit =>
      have begun : Rewires s.bus s.bus.beginShutdown := .of_queues (.of_eq rfl) rfl rfl rfl
      exact begun.trans (.resumeShutdown _ _)
    | beginShutdown | registry => exact .of_queues (.of_eq rfl) rfl rfl rfl
    | accept => cases apart
    | send | respond | retrieve => cases plain
  | @take l before after launched =>
    cases l with
    | tracker | processor => cases plain
    | closer => cases apart
  | @resume j rest job =>
    cases j with
    | watching w =>
      show Rewires s.bus (s.bus.resumeWatch w).1
      rw [resumeWatch_fst]
      exact .refl s.bus
    | draining d =>
      show Rewires s.bus (s.bus.drain d).1
      rw [drain_fst]
      exact .refl s.bus
    | shuttingDown u => exact .resumeShutdown s.bus u
    | processing => exact .refl s.bus
    | accepting | closing => cases apart
    | sending | retrieving | tracking => cases plain
  | @abandon j rest call job =>
    cases j with
    | sending c => exact .abandonSend s.bus c
    | accepting => cases apart
    | _ => exact .refl s.bus
  | finish | serve => cases plain
  | pass => exact .of_queues (.of_eq rfl) rfl rfl rfl

/-- What a step does to the outline. -/
inductive Outlined (s : Traffic) : Deed → Outline → Prop
  | same {d : Deed} : Outlined s d s.bus.outline
  | selects {d : Deed} :
    Outlined s d { s.bus.outline with selector := s.bus.selectorAfter d }
  | connects {d : Deed} {c : ComponentId} {dl : Delivery}
    (deed : d = .ask (.connect c dl) ∨
      (d = .ask (.connectQueue c) ∧ dl = .pull s.bus.queues.length)) :
    Outlined s d { s.bus.outline with components := s.bus.components.insert c dl }
  | disconnects {c : ComponentId} {cs : Table ComponentId Delivery}
    (get : ∀ k, cs.get? k = if k = c then none else s.bus.components.get? k) :
    Outlined s (.ask (.disconnect c)) { s.bus.outline with components := cs }
  | registers (c : Registry.Call) :
    Outlined s (.ask (.registry c)) { s.bus.outline with registry := s.bus.registry.after c }
  | passes (t : Nat) : Outlined s (.pass t) { s.bus.outline with now := t }
  | closes {d : Deed} : Outlined s d { s.bus.outline with closing := true }
  | stops {d : Deed} {cs : Table ComponentId Delivery} (get : ∀ k, cs.get? k = none) :
    Outlined s d { s.bus.outline with components := cs, closing := true, stopped := true }
  | halts {d : Deed} {cs : Table ComponentId Delivery} (get : ∀ k, cs.get? k = none) :
    Outlined s d { s.bus.outline with
      components := cs, closing := true, stopped := true, registry := s.bus.registry.clear }

theorem Outlined.of_eq {o : Outline} (h : o = s.bus.outline) : Outlined s d o := h ▸ .same

theorem Step.outlined (h : s.Step d s') : s.Outlined d s'.bus.outline := by
  by_cases loud : d.isPlain = false
  · rw [outline_eq (h.feeds loud).scene_eq]
    exact .selects
  have plain : d.isPlain = true := eq_true_of_ne_false loud
  cases h with
  | @ask r proper =>
    cases r with
    | watch x g limit =>
      show Outlined s _ (s.bus.watch x g limit).1.outline
      rw [watch, resumeWatch_fst]
      exact .same
    | accept c limit => exact .of_eq (Stands.accept s.bus c limit).outline_eq
    | connect c dl =>
      show Outlined s _ (s.bus.connect c dl).outline
      rw [outline_connect]
      exact .connects (.inl rfl)
    | connectQueue c =>
      show Outlined s _ (Bus.connect _ c _).outline
      rw [outline_connect]
      exact .connects (.inr ⟨rfl, rfl⟩)
    | disconnect c =>
      obtain ⟨cs, get, outline⟩ := outline_disconnect s.bus c
      show Outlined s _ (s.bus.disconnect c).1.outline
      rw [outline]
      exact .disconnects get
    | drain limit =>
      show Outlined s _ (s.bus.drain _).1.outline
      rw [drain_fst]
      exact .same
    | failInFlight cause =>
      exact .of_eq (Stands.failAll cause s.bus.inFlight.values s.bus).outline_eq
    | beginShutdown => exact .closes
    | stop =>
      obtain ⟨cs, get, outline⟩ := outline_stop s.bus
      show Outlined s _ s.bus.stop.outline
      rw [outline]
      exact .stops get
    | shutdown limit =>
      show Outlined s _ (s.bus.beginShutdown.resumeShutdown _).1.outline
      obtain ⟨same, -⟩ | ⟨cs, get, outline⟩ :=
        outline_resumeShutdown s.bus.beginShutdown (.draining ⟨s.bus.now + limit⟩)
      · rw [same]
        exact .closes
      · rw [outline]
        exact .halts get
    | registry c => exact .registers c
    | create | change => exact .same
    | send | respond | retrieve => cases plain
  | @take l before after launched =>
    cases l with
    | tracker | processor => cases plain
    | closer q => exact .of_eq (Stands.resumeClosing _ _).outline_eq
  | @resume j rest job =>
    cases j with
    | watching w =>
      show Outlined s _ (s.bus.resumeWatch w).1.outline
      rw [resumeWatch_fst]
      exact .same
    | draining d =>
      show Outlined s _ (s.bus.drain d).1.outline
      rw [drain_fst]
      exact .same
    | accepting a => exact .of_eq (accepts s.bus a).stands.outline_eq
    | shuttingDown u =>
      show Outlined s _ (s.bus.resumeShutdown u).1.outline
      obtain ⟨same, -⟩ | ⟨cs, get, outline⟩ := outline_resumeShutdown s.bus u
      · exact .of_eq same
      · rw [outline]
        exact .halts get
    | closing c => exact .of_eq (Stands.resumeClosing s.bus c).outline_eq
    | processing => exact .same
    | sending | retrieving | tracking => cases plain
  | @abandon j rest call job =>
    cases j with
    | sending c => cases c <;> exact .same
    | _ => exact .same
  | finish | serve => cases plain
  | pass => exact .passes _

/-- Only sends that look for a target have the selector pick. -/
theorem Step.selector_eq (h : s.Step d s') : s'.bus.selector = s.bus.selectorAfter d := by
  by_cases loud : d.isPlain = false
  · exact congrArg Outline.selector (outline_eq (h.feeds loud).scene_eq)
  have alone : s.bus.selectorAfter d = s.bus.selector := by
    unfold selectorAfter
    split
    · exact absurd rfl loud
    · rfl
  have outlined := h.outlined
  show s'.bus.outline.selector = _
  generalize s'.bus.outline = o at outlined
  cases outlined with
  | selects => rfl
  | _ => exact alone.symm

end Traffic
end ServiceBus
