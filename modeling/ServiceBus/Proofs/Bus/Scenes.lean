import ServiceBus.Proofs.Bus.Courses

/-!
# What sends leave as it is

Sends, processors, trackers and calls on stores have nothing to do with the clock, the registry, the
connections, the selector and the lines of acceptors. All of that is the `Bus.scene`, and they leave
it alone, except that a send which looks for its target has the selector pick (`selectorAfter`). What
they do to queues is that at most one exchange comes into one of them, if that is open and the bus has
not stopped (`Step.feeds`).
-/

namespace ServiceBus

/-- What accepting and closing change of a queue, apart from taking exchanges out. -/
def PullQueue.line (p : PullQueue) : Bool × List Nat := (p.closed, p.acceptors)

/-- What a bus has beside its exchanges, queues, deliveries and stores. -/
structure Outline where
  now : Nat
  registry : Registry
  components : Table ComponentId Delivery
  closing : Bool
  stopped : Bool
  selector : Selector

/-- The outline of a bus, with the lines of its queues and who is to close one. -/
structure Scene extends Outline where
  lines : List (Bool × List Nat)
  closers : List Launch

namespace PullQueue
variable {q p : PullQueue} {x t : Nat}

theorem line_grant (q : PullQueue) : q.grant.line = q.line := by
  unfold grant
  split
  · rfl
  · split <;> rfl

theorem line_withdraw (q : PullQueue) (t : Nat) : (q.withdraw t).line = q.line :=
  line_grant _

theorem line_of_offer? (h : q.offer? x = some p) : p.line = q.line := by
  unfold offer? at h
  split at h
  · rw [← Option.some.inj h]
    rfl
  · cases h

theorem line_of_use? (h : q.use? t x = some p) : p.line = q.line := by
  unfold use? at h
  split at h
  · rw [← Option.some.inj h]
    rfl
  · cases h

theorem line_of_take? (h : q.take? = some (x, p)) : p.line = q.line := by
  unfold take? at h
  split at h
  · cases h
  · rw [← (Prod.mk.inj (Option.some.inj h)).2, line_grant]
    rfl

end PullQueue

namespace Bus
variable {b b' b'' : Bus} {x q : Nat}

def outline (b : Bus) : Outline :=
  { now := b.now, registry := b.registry, components := b.components, closing := b.closing
    stopped := b.stopped, selector := b.selector }

def scene (b : Bus) : Scene :=
  { b.outline with
    lines := b.queues.map PullQueue.line
    closers := b.launched.filter fun l => !l.isDuty }

theorem outline_eq (h : b'.scene = b.scene) : b'.outline = b.outline :=
  congrArg Scene.toOutline h

theorem line_eq (h : b'.scene = b.scene) (q : Nat) : (b'.queue q).line = (b.queue q).line := by
  have lines : b'.queues.map PullQueue.line = b.queues.map PullQueue.line :=
    congrArg Scene.lines h
  have line (c : Bus) : (c.queue q).line =
      (c.queues.map PullQueue.line)[q]?.getD (default : PullQueue).line := by
    rw [List.getElem?_map, Option.getD_map]
    rfl
  rw [line, line, lines]

theorem closed_eq (h : b'.scene = b.scene) (q : Nat) : (b'.queue q).closed = (b.queue q).closed :=
  congrArg Prod.fst (line_eq h q)

theorem length_eq (h : b'.scene = b.scene) : b'.queues.length = b.queues.length := by
  have lengths := congrArg (·.lines.length) h
  simpa [scene] using lengths

theorem acceptors_eq (h : b'.scene = b.scene) (q : Nat) :
    (b'.queue q).acceptors = (b.queue q).acceptors :=
  congrArg Prod.snd (line_eq h q)

theorem scene_setQueue {p : PullQueue} (h : p.line = (b.queue q).line) :
    (b.setQueue q p).scene = b.scene := by
  have lines : (b.queues.set q p).map PullQueue.line = b.queues.map PullQueue.line := by
    refine List.ext_getElem? fun r => ?_
    rw [List.getElem?_map, List.getElem?_map, List.getElem?_set]
    split
    · next e =>
      subst e
      split
      · next there =>
        rw [Option.map_some, h, queue, List.getElem?_eq_getElem there]
        rfl
      · next gone => rw [List.getElem?_eq_none (Nat.le_of_not_lt gone)]
    · rfl
  exact congrArg (fun l => { b.scene with lines := l }) lines

theorem scene_launch {l : Launch} (duty : l.isDuty = true) : (b.launch l).scene = b.scene := by
  have closers : (b.launched ++ [l]).filter (fun l => !l.isDuty) =
      b.launched.filter fun l => !l.isDuty := by
    rw [List.filter_append, List.filter_cons_of_neg (by simp [duty])]
    exact List.append_nil _
  exact congrArg (fun l => { b.scene with closers := l }) closers

theorem scene_leaving {l : Launch} {before others : List Launch}
    (launched : b.launched = before ++ l :: others) (duty : l.isDuty = true) :
    (b.leaving (before ++ others)).scene = b.scene := by
  have closers : (before ++ others).filter (fun l => !l.isDuty) =
      b.launched.filter fun l => !l.isDuty := by
    rw [launched, List.filter_append, List.filter_append, List.filter_cons_of_neg (by simp [duty])]
  exact congrArg (fun l => { b.scene with closers := l }) closers

/-- A send of `x` gets to look for a target. -/
def Seeks (b : Bus) (x : Nat) : Prop :=
  (b.exchange x).status = .active ∧ (b.exchange x).owner = .consumer ∧ b.closing = false

instance (b : Bus) (x : Nat) : Decidable (b.Seeks x) := inferInstanceAs (Decidable (_ ∧ _ ∧ _))

/-- The selector after the deed. -/
def selectorAfter (b : Bus) : Deed → Selector
  | .ask (.send x) => if b.Seeks x then (b.choose (b.exchange x)).1 else b.selector
  | _ => b.selector

/-! ### Turns that put nothing into a queue -/

/-- From `b` to `b'` only exchanges, deliveries and stores have had anything done to them. -/
structure Still (b b' : Bus) : Prop where
  scene_eq : b'.scene = b.scene
  items_eq : ∀ q, (b'.queue q).items = (b.queue q).items
  fresh_le : b.fresh ≤ b'.fresh

namespace Still

theorem of_eq (scene : b'.scene = b.scene) (queues : b'.queues = b.queues)
    (fresh : b.fresh ≤ b'.fresh) : Still b b' :=
  ⟨scene, fun q => congrArg PullQueue.items (queue_congr queues q), fresh⟩

theorem refl (b : Bus) : Still b b := of_eq rfl rfl (Nat.le_refl _)

theorem trans (h : Still b b') (k : Still b' b'') : Still b b'' where
  scene_eq := k.scene_eq.trans h.scene_eq
  items_eq q := (k.items_eq q).trans (h.items_eq q)
  fresh_le := Nat.le_trans h.fresh_le k.fresh_le

theorem change (b : Bus) (x : Nat) (c : Change) : Still b (b.change x c).1 :=
  of_eq rfl rfl (Nat.le_refl _)

theorem failQuietly (b : Bus) (x : Nat) (cause : String) : Still b (b.failQuietly x cause) :=
  change b x _

theorem reset {p : PullQueue} (line : p.line = (b.queue q).line)
    (items : p.items = (b.queue q).items) : Still b (b.setQueue q p) where
  scene_eq := scene_setQueue line
  items_eq r := by
    rw [queue_setQueue]
    split
    · next e => rw [items, e.1]
    · rfl
  fresh_le := Nat.le_refl _

theorem forgo (b : Bus) (q : Nat) (ticket : Option Nat) : Still b (b.forgo q ticket) := by
  cases ticket with
  | none => exact refl b
  | some t => exact reset (PullQueue.line_withdraw _ t) (PullQueue.items_withdraw _ t)

theorem resolveTarget (b : Bus) (x : Nat) :
    Still { b with selector := (b.choose (b.exchange x)).1 } (b.resolveTarget x).1 := by
  unfold Bus.resolveTarget
  dsimp only
  split <;> next e => rw [e]; exact of_eq rfl rfl (Nat.le_refl _)

theorem settle (b : Bus) (x run : Nat) (o : Outcome) : Still b (b.settle x run o).1 := by
  unfold Bus.settle
  split
  · next reason _ =>
    have changed := change b x (.fail reason)
    split <;> next e => rwa [e] at changed
  · dsimp only
    split
    · exact change b x _
    · split
      · exact refl b
      · exact failQuietly b x _

theorem finish (b : Bus) (x run : Nat) (awaited : Bool) (o : Outcome) :
    Still b (b.finish x run awaited o) := by
  unfold Bus.finish
  split
  · exact of_eq rfl rfl (Nat.le_refl _)
  · split
    · exact refl b
    · exact settle b x run _

theorem awaitProcessor (b : Bus) (x run deadline : Nat) :
    Still b (b.awaitProcessor x run deadline).1 := by
  unfold Bus.awaitProcessor
  split
  · next o _ =>
    have settled := settle b x run o
    split <;> next e => rwa [e] at settled
  · split
    · exact refl b
    · split
      · exact failQuietly b x _
      · exact refl b

theorem awaitReply (b : Bus) (x deadline : Nat) : Still b (b.awaitReply x deadline).1 := by
  unfold Bus.awaitReply
  split
  · exact refl b
  · split
    · exact failQuietly b x _
    · exact refl b

theorem queued (b : Bus) (x : Nat) : Still b (b.queued x).1 := by
  unfold Bus.queued
  split
  · exact awaitReply b x _
  · exact refl b

theorem track (b : Bus) (x : Nat) : Still b (b.track x) :=
  of_eq (scene_launch rfl) rfl (Nat.le_refl _)

theorem push (b : Bus) (x processor : Nat) : Still b (b.push x processor).1 := by
  have launched : Still b (b.take.1.launch
      (.processor b.fresh processor x (b.exchange x).synchronous)) :=
    of_eq (scene_launch rfl) rfl (Nat.le_succ _)
  unfold Bus.push
  dsimp only
  split
  · exact launched.trans (awaitProcessor _ x _ _)
  · exact launched

theorem await (b : Bus) (t : Turn DirectoryCall StoreAnswer) : Still b (b.await t).1 := by
  cases t <;> exact of_eq rfl rfl (Nat.le_refl _)

theorem callStore (b : Bus) (s : Nat) (c : StoreCall) : Still b (b.callStore s c).1 := by
  have taken : Still b { b.take.1 with stores := b.stores.set s ((b.store s).start b.fresh c).1 } :=
    of_eq rfl rfl (Nat.le_succ _)
  exact taken.trans (await _ _)

theorem resumeAccess (b : Bus) (a : Access) : Still b (b.resumeAccess a).1 := by
  unfold Bus.resumeAccess
  split
  · have performed : Still b { b with files := (b.files.perform a.call.operation).1 } :=
      of_eq rfl rfl (Nat.le_refl _)
    exact performed.trans (await _ _)
  · exact refl b

theorem persist (b : Bus) (x : Nat) : Still b (b.persist x).1 := by
  unfold Bus.persist
  split
  · exact refl b
  · exact callStore b _ _

theorem retrieve (b : Bus) (id : String) : Still b (b.retrieve id).1 := by
  unfold Bus.retrieve
  split
  · exact refl b
  · exact callStore b _ _

theorem respond (b : Bus) (x : Nat) : Still b (b.respond x).1 := by
  have changed := change b x .handBack
  unfold Bus.respond
  dsimp only
  split
  · exact refl b
  · split
    · next e => rwa [e] at changed
    · next e =>
      rw [e] at changed
      split
      · exact changed.trans (persist _ x)
      · exact changed

theorem send_of_not_seeks (idle : ¬ b.Seeks x) : Still b (b.send x).1 := by
  unfold Bus.send
  dsimp only
  split
  · exact refl b
  · next going =>
    split
    · exact respond b x
    · next kept =>
      split
      · exact refl b
      · next opened =>
        have owner : (b.exchange x).owner = .consumer := by
          cases owner : (b.exchange x).owner with
          | consumer => rfl
          | provider => exact absurd owner kept
        exact absurd ⟨by simpa using going, owner, Bool.eq_false_iff.2 opened⟩ idle

theorem removed (b : Bus) (x : Nat) (t : Turn Access StoreAnswer) : Still b (b.removed x t).1 := by
  cases t <;> exact of_eq rfl rfl (Nat.le_refl _)

theorem follow (b : Bus) (x : Nat) (persisted : Bool) : Still b (b.follow x persisted).1 := by
  unfold Bus.follow
  split
  · split
    · next n _ =>
      split
      · exact (callStore b n (.remove (b.exchange x).id)).trans (removed _ x _)
      · exact removed b x _
    · exact removed b x _
  · exact refl b

theorem resumeTracking (b : Bus) (u : Tracking) : Still b (b.resumeTracking u).1 := by
  cases u with
  | watching x persisted seen => exact follow b x persisted
  | removing x a => exact (resumeAccess b a).trans (removed _ x _)

end Still

/-! ### Turns that may put an exchange into a queue -/

/-- From `b` to `b'` queue `q` has been left alone, or an exchange has come into it. -/
structure Feeds (b b' : Bus) : Prop where
  scene_eq : b'.scene = b.scene
  items : ∀ q, (b'.queue q).items = (b.queue q).items ∨
    ((b.queue q).closed = false ∧ b.stopped = false ∧
      ∃ x, (b'.queue q).items = (b.queue q).items ++ [x])
  fresh_le : b.fresh ≤ b'.fresh

theorem Still.feeds (h : Still b b') : Feeds b b' :=
  ⟨h.scene_eq, fun q => .inl (h.items_eq q), h.fresh_le⟩

namespace Feeds

theorem after_still (h : Still b b') (k : Feeds b' b'') : Feeds b b'' where
  scene_eq := k.scene_eq.trans h.scene_eq
  items q := by
    have stopped : b'.stopped = b.stopped := congrArg Outline.stopped (outline_eq h.scene_eq)
    have fed := k.items q
    rwa [h.items_eq, closed_eq h.scene_eq, stopped] at fed
  fresh_le := Nat.le_trans h.fresh_le k.fresh_le

theorem then_still (h : Feeds b b') (k : Still b' b'') : Feeds b b'' where
  scene_eq := k.scene_eq.trans h.scene_eq
  items q := k.items_eq q ▸ h.items q
  fresh_le := Nat.le_trans h.fresh_le k.fresh_le

theorem enters {p : PullQueue} (closed : (b.queue q).closed = false) (stopped : b.stopped = false)
    (line : p.line = (b.queue q).line) (put : p.items = (b.queue q).items ++ [x]) :
    Feeds b (b.setQueue q p) where
  scene_eq := scene_setQueue line
  items r := by
    rw [queue_setQueue]
    split
    · next e => exact .inr ⟨e.1 ▸ closed, stopped, x, e.1 ▸ put⟩
    · exact .inl rfl
  fresh_le := Nat.le_refl _

theorem enqueue (b : Bus) (x : Nat) (c : ComponentId) (q : Nat) (ticket : Option Nat) :
    Feeds b (b.enqueue x c q ticket).1 := by
  have forgone := Still.forgo b q ticket
  unfold Bus.enqueue
  split
  · exact (forgone.trans (.failQuietly _ x _)).feeds
  · next stopped =>
    have stopped := Bool.eq_false_iff.2 stopped
    split
    · exact (forgone.trans (.failQuietly _ x _)).feeds
    · next closed =>
      have closed := Bool.eq_false_iff.2 closed
      split <;> split
      · next p h =>
        exact (enters closed stopped (PullQueue.line_of_offer? h)
          (PullQueue.items_of_offer? h)).then_still (.queued _ x)
      · have taken : Still b b.take.1 := .of_eq rfl rfl (Nat.le_succ _)
        have lined : Still b.take.1 (b.take.1.setQueue q ((b.queue q).enlist b.fresh)) :=
          .reset rfl rfl
        exact (taken.trans lined).feeds
      · next p h =>
        exact (enters closed stopped (PullQueue.line_of_use? h)
          (PullQueue.items_of_use? h)).then_still (.queued _ x)
      · exact (Still.refl b).feeds

theorem deliver (b : Bus) (x : Nat) (target : Endpoint) (d : Delivery) :
    Feeds b (b.deliver x target d).1 := by
  have tracked := Still.track b x
  cases d with
  | push n => exact (tracked.trans (.push _ x n)).feeds
  | pull q => exact after_still tracked (enqueue _ x _ q none)

theorem persisted (b : Bus) (x : Nat) (target : Endpoint) (d : Delivery)
    (t : Turn Access StoreAnswer) : Feeds b (b.persisted x target d t).1 := by
  cases t with
  | waiting a => exact (Still.refl b).feeds
  | ended r =>
    cases r with
    | ok v => exact deliver b x target d
    | error e => exact (Still.failQuietly b x _).feeds

theorem dispatch (b : Bus) (x : Nat) (target : Endpoint) (d : Delivery) :
    Feeds b (b.dispatch x target d).1 := by
  have changed := Still.change b x (.dispatch target)
  unfold Bus.dispatch
  split
  · next e =>
    rw [e] at changed
    exact changed.feeds
  · next e =>
    rw [e] at changed
    split
    · exact after_still (changed.trans (.persist _ x)) (persisted _ x target d _)
    · exact after_still changed (deliver _ x target d)

theorem send_of_seeks (seeks : b.Seeks x) :
    Feeds { b with selector := (b.choose (b.exchange x)).1 } (b.send x).1 := by
  obtain ⟨active, owner, accepting⟩ := seeks
  have resolved := Still.resolveTarget b x
  unfold Bus.send
  dsimp only
  rw [if_neg (by simp [active]), if_neg (by simp [owner]), if_neg (by simp [accepting])]
  split
  · next e =>
    rw [e] at resolved
    exact resolved.feeds
  · next e =>
    rw [e] at resolved
    split
    · exact after_still resolved (dispatch _ x _ _)
    · exact (resolved.trans (.failQuietly _ x _)).feeds

theorem send (b : Bus) (x : Nat) :
    Feeds { b with selector := b.selectorAfter (.ask (.send x)) } (b.send x).1 := by
  unfold selectorAfter
  dsimp only
  split
  · next seeks => exact send_of_seeks seeks
  · next idle => exact (Still.send_of_not_seeks idle).feeds

theorem resumeSend (b : Bus) (c : Sending) : Feeds b (b.resumeSend c).1 := by
  cases c with
  | persisting x target d a => exact after_still (.resumeAccess b a) (persisted _ x target d _)
  | processing x run deadline seen => exact (Still.awaitProcessor b x run deadline).feeds
  | queueing x c q ticket => exact enqueue b x c q (some ticket)
  | replying x deadline seen => exact (Still.awaitReply b x deadline).feeds
  | responding x a => exact (Still.resumeAccess b a).feeds

end Feeds
end Bus

/-! ### Steps -/

namespace Traffic
variable {s s' : Traffic} {d : Deed} {x : Nat}
open Bus

theorem Step.feeds (h : s.Step d s') (loud : d.isPlain = false) :
    Feeds { s.bus with selector := s.bus.selectorAfter d } s'.bus := by
  have event := h.event
  obtain ⟨b, jobs, log⟩ := s'
  cases event with
  | plain _ _ deed => cases deed.symm.trans loud
  | send => exact .send s.bus _
  | respond => exact (Still.respond s.bus _).feeds
  | resumeSend => exact .resumeSend s.bus _
  | retrieve id => exact (Still.retrieve s.bus id).feeds
  | resumeRetrieve => exact (Still.resumeAccess s.bus _).feeds
  | track launched =>
    have left : Still s.bus _ := .of_eq (scene_leaving launched rfl) rfl (Nat.le_refl _)
    exact (left.trans (.follow _ _ _)).feeds
  | resumeTracking => exact (Still.resumeTracking s.bus _).feeds
  | process launched => exact (Still.of_eq (scene_leaving launched rfl) rfl (Nat.le_refl _)).feeds
  | finish o => exact (Still.finish s.bus _ _ _ o).feeds
  | serve =>
    have served : Still s.bus { s.bus with served := s.bus.served + 1 } :=
      .of_eq rfl rfl (Nat.le_refl _)
    exact served.feeds

end Traffic
end ServiceBus
