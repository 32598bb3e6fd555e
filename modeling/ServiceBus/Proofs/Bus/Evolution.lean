import ServiceBus.Proofs.Bus.Stirs

/-!
# What becomes of exchanges while others act

Whatever a party does at its turn, exchanges only evolve (`Acts.evolves`), so a call that waits can
rely on it whoever acts meanwhile.
-/

namespace ServiceBus.Bus
variable {b b' : Bus}

/-! ### Stores -/

/-- From `b` to `b'` a store has been called, or a call on it has had the disk's attention. -/
structure Calls (b b' : Bus) : Prop where
  exchanges_eq : b'.exchanges = b.exchanges
  settings_eq : b'.settings = b.settings
  inFlight_eq : b'.inFlight = b.inFlight
  outcomes_eq : b'.outcomes = b.outcomes
  launched_eq : b'.launched = b.launched
  queues_eq : b'.queues = b.queues
  served_eq : b'.served = b.served
  asked_le : b.asked ≤ b'.asked
  fresh_le : b.fresh ≤ b'.fresh

namespace Calls

theorem refl (b : Bus) : Calls b b :=
  ⟨rfl, rfl, rfl, rfl, rfl, rfl, rfl, Nat.le_refl _, Nat.le_refl _⟩

theorem await (b : Bus) (t : Turn DirectoryCall StoreAnswer) : Calls b (b.await t).1 := by
  cases t with
  | ended r => exact refl b
  | waiting c => exact ⟨rfl, rfl, rfl, rfl, rfl, rfl, rfl, Nat.le_succ _, Nat.le_refl _⟩

theorem callStore (b : Bus) (s : Nat) (c : StoreCall) : Calls b (b.callStore s c).1 := by
  obtain ⟨he, hs, hi, ho, hl, hq, hv, ha, hf⟩ := await
    { b.take.1 with stores := b.stores.set s ((b.store s).start b.fresh c).1 }
    ((b.store s).start b.fresh c).2
  exact ⟨he, hs, hi, ho, hl, hq, hv, ha, Nat.le_of_succ_le hf⟩

theorem resumeAccess (b : Bus) (a : Access) : Calls b (b.resumeAccess a).1 := by
  unfold Bus.resumeAccess
  split
  · obtain ⟨he, hs, hi, ho, hl, hq, hv, ha, hf⟩ := await
      { b with files := (b.files.perform a.call.operation).1 }
      (a.call.resume (b.files.perform a.call.operation).2)
    exact ⟨he, hs, hi, ho, hl, hq, hv, ha, hf⟩
  · exact refl b

theorem persist (b : Bus) (x : Nat) : Calls b (b.persist x).1 := by
  unfold Bus.persist
  split
  · exact refl b
  · exact callStore b _ _

theorem retrieve (b : Bus) (id : String) : Calls b (b.retrieve id).1 := by
  unfold Bus.retrieve
  split
  · exact refl b
  · exact callStore b _ _

theorem of_turn {τ : Type} {b b' : Bus} {r : Bus × τ} {t : τ} (turn : r = (b', t))
    (h : Calls b r.1) : Calls b b' := by
  rwa [turn] at h

theorem evolves {b b' : Bus} (h : Calls b b') : Evolves b b' := .of_eq h.exchanges_eq

theorem lt_size {b b' : Bus} (h : Calls b b') {x : Nat} (hx : x < b.exchanges.size) :
    x < b'.exchanges.size := by
  rwa [h.exchanges_eq]

theorem exchange_eq {b b' : Bus} (h : Calls b b') (x : Nat) : b'.exchange x = b.exchange x := by
  unfold exchange
  rw [h.exchanges_eq]

theorem duties_eq {b b' : Bus} (h : Calls b b') : b'.duties = b.duties := by
  unfold duties
  rw [h.launched_eq]

end Calls

theorem exchanges_openStore (b : Bus) (s : Store) : (b.openStore s).1.exchanges = b.exchanges := by
  unfold openStore
  split <;> rfl

theorem exchanges_resumeOpening (b : Bus) (o : Opening) :
    (b.resumeOpening o).1.exchanges = b.exchanges := by
  unfold resumeOpening
  split
  · dsimp only
    split <;> rfl
  · rfl

/-- Whether an exchange is kept was decided when it was made and by the settings. -/
theorem persists_later {x : Nat} (he : Evolves b b') (hs : b'.settings = b.settings)
    (hx : x < b.exchanges.size) : b'.persists x = b.persists x := by
  rw [persists, persists, hs, (he.leads x hx).onward.persistent_eq]

/-! ### Sends -/

namespace Evolves

theorem respond (b : Bus) (x : Nat) : Evolves b (b.respond x).1 := by
  have hc := change b x .handBack
  unfold Bus.respond
  dsimp only
  split
  · exact refl b
  · split
    · next e => rwa [e] at hc
    · next e =>
      rw [e] at hc
      split
      · exact hc.trans (Calls.persist _ x).evolves
      · exact hc

theorem settle (b : Bus) (x run : Nat) (o : Outcome) : Evolves b (b.settle x run o).1 := by
  unfold Bus.settle
  split
  · next reason _ =>
    have hc := change b x (.fail reason)
    split <;> next e => rwa [e] at hc
  · dsimp only
    split
    · exact change b x .handBack
    · split
      · exact refl b
      · exact failQuietly b x _

theorem finish (b : Bus) (x run : Nat) (awaited : Bool) (o : Outcome) :
    Evolves b (b.finish x run awaited o) := by
  unfold Bus.finish
  split
  · exact .of_eq rfl
  · split
    · exact refl b
    · exact settle b x run _

theorem awaitProcessor (b : Bus) (x run deadline : Nat) :
    Evolves b (b.awaitProcessor x run deadline).1 := by
  unfold Bus.awaitProcessor
  split
  · next o _ =>
    have hs := settle b x run o
    split <;> next e => rwa [e] at hs
  · split
    · exact refl b
    · split
      · exact failQuietly b x _
      · exact refl b

theorem push (b : Bus) (x processor : Nat) : Evolves b (b.push x processor).1 := by
  unfold Bus.push
  dsimp only
  split
  · exact (awaitProcessor _ x _ _).from_eq rfl
  · exact .of_eq rfl

theorem deliver (b : Bus) (x : Nat) (target : Endpoint) (d : Delivery) :
    Evolves b (b.deliver x target d).1 := by
  cases d with
  | push processor => exact (push (b.track x) x processor).from_eq rfl
  | pull q => exact (Stirs.enqueue (b.track x) x _ q none).toEvolves.from_eq rfl

theorem persisted (b : Bus) (x : Nat) (target : Endpoint) (d : Delivery)
    (t : Turn Access StoreAnswer) : Evolves b (b.persisted x target d t).1 := by
  cases t with
  | waiting a => exact refl b
  | ended r =>
    cases r with
    | ok _ => exact deliver b x target d
    | error e => exact failQuietly b x _

theorem dispatch (b : Bus) (x : Nat) (target : Endpoint) (d : Delivery) :
    Evolves b (b.dispatch x target d).1 := by
  have hc := change b x (.dispatch target)
  unfold Bus.dispatch
  split
  · next e => rwa [e] at hc
  · next e =>
    rw [e] at hc
    split
    · exact (hc.trans (Calls.persist _ x).evolves).trans (persisted _ x target d _)
    · exact hc.trans (deliver _ x target d)

theorem send (b : Bus) (x : Nat) : Evolves b (b.send x).1 := by
  have hr := (Stirs.resolveTarget b x).toEvolves
  unfold Bus.send
  dsimp only
  split
  · exact refl b
  · split
    · exact respond b x
    · split
      · exact refl b
      · split
        · next e => rwa [e] at hr
        · next e =>
          rw [e] at hr
          split
          · exact hr.trans (dispatch _ x _ _)
          · exact hr.trans (failQuietly _ x _)

theorem resumeSend (b : Bus) (c : Sending) : Evolves b (b.resumeSend c).1 := by
  cases c with
  | persisting x target d a =>
    exact (Calls.resumeAccess b a).evolves.trans (persisted _ x target d _)
  | processing x run deadline seen => exact awaitProcessor b x run deadline
  | queueing x c q ticket => exact (Stirs.enqueue b x c q (some ticket)).toEvolves
  | replying x deadline seen => exact (Stirs.awaitReply b x deadline).toEvolves
  | responding x a => exact (Calls.resumeAccess b a).evolves

/-! ### Following -/

theorem removed (b : Bus) (x : Nat) (t : Turn Access StoreAnswer) :
    Evolves b (b.removed x t).1 := by
  cases t <;> exact .of_eq rfl

theorem follow (b : Bus) (x : Nat) (persisted : Bool) : Evolves b (b.follow x persisted).1 := by
  unfold Bus.follow
  split
  · split
    · next s _ =>
      split
      · exact (Calls.callStore b s (.remove (b.exchange x).id)).evolves.trans (removed _ x _)
      · exact removed b x _
    · exact removed b x _
  · exact refl b

theorem resumeTracking (b : Bus) (t : Tracking) : Evolves b (b.resumeTracking t).1 := by
  cases t with
  | watching x persisted seen => exact follow b x persisted
  | removing x a => exact (Calls.resumeAccess b a).evolves.trans (removed _ x _)

end Evolves

/-! ### Turns of any party -/

/-- A turn of some party. -/
inductive Acts (b : Bus) : Bus → Prop
  | change (x : Nat) (c : Change) : Acts b (b.change x c).1
  | addExchange (e : Exchange) : Acts b (b.addExchange e).1
  | send (x : Nat) : Acts b (b.send x).1
  | respond (x : Nat) : Acts b (b.respond x).1
  | resumeSend (c : Sending) : Acts b (b.resumeSend c).1
  | abandonSend (c : Sending) : Acts b (b.abandonSend c)
  | accept (c : ComponentId) (limit : Option Nat) : Acts b (b.accept c limit).1
  | resumeAccept (a : Accepting) : Acts b (b.resumeAccept a).1
  | abandonAccept (a : Accepting) : Acts b (b.abandonAccept a)
  | finish (x run : Nat) (awaited : Bool) (o : Outcome) : Acts b (b.finish x run awaited o)
  | connect (c : ComponentId) (d : Delivery) : Acts b (b.connect c d)
  | connectQueue (c : ComponentId) : Acts b (b.connectQueue c)
  | disconnect (c : ComponentId) : Acts b (b.disconnect c).1
  | disconnectAll : Acts b b.disconnectAll
  | close (q : Nat) : Acts b (b.close q).1
  | resumeClosing (c : Closing) : Acts b (b.resumeClosing c).1
  | follow (x : Nat) (persisted : Bool) : Acts b (b.follow x persisted).1
  | resumeTracking (t : Tracking) : Acts b (b.resumeTracking t).1
  | failInFlight (cause : String) : Acts b (b.failInFlight cause).1
  | stop : Acts b b.stop
  | shutdown (limit : Nat) : Acts b (b.shutdown limit).1
  | resumeShutdown (s : ShuttingDown) : Acts b (b.resumeShutdown s).1
  | callStore (s : Nat) (c : StoreCall) : Acts b (b.callStore s c).1
  | resumeAccess (a : Access) : Acts b (b.resumeAccess a).1
  | openStore (s : Store) : Acts b (b.openStore s).1
  | resumeOpening (o : Opening) : Acts b (b.resumeOpening o).1
  /-- Waiting, the registry, the clock and the disk leave exchanges alone. -/
  | aside {b' : Bus} (same : b'.exchanges = b.exchanges) : Acts b b'

theorem Acts.evolves (h : Acts b b') : Evolves b b' := by
  cases h with
  | change x c => exact .change b x c
  | addExchange e => exact .addExchange b e
  | send x => exact .send b x
  | respond x => exact .respond b x
  | resumeSend c => exact .resumeSend b c
  | abandonSend c => exact (Stirs.abandonSend b c).toEvolves
  | accept c limit => exact (Stirs.accept b c limit).toEvolves
  | resumeAccept a => exact (Stirs.resumeAccept b a).toEvolves
  | abandonAccept a => exact .of_eq rfl
  | finish x run awaited o => exact .finish b x run awaited o
  | connect c d => exact (Stirs.connect b c d).toEvolves
  | connectQueue c => exact (Stirs.connectQueue b c).toEvolves
  | disconnect c => exact (Stirs.disconnect b c).toEvolves
  | disconnectAll => exact (Stirs.disconnectAll b).toEvolves
  | close q => exact (Stirs.close b q).toEvolves
  | resumeClosing c => exact (Stirs.resumeClosing b c).toEvolves
  | follow x persisted => exact .follow b x persisted
  | resumeTracking t => exact .resumeTracking b t
  | failInFlight cause => exact (Stirs.failInFlight b cause).toEvolves
  | stop => exact (Stirs.stop b).toEvolves
  | shutdown limit => exact (Stirs.shutdown b limit).toEvolves
  | resumeShutdown s => exact (Stirs.resumeShutdown b s).toEvolves
  | callStore s c => exact (Calls.callStore b s c).evolves
  | resumeAccess a => exact (Calls.resumeAccess b a).evolves
  | openStore s => exact .of_eq (exchanges_openStore b s)
  | resumeOpening o => exact .of_eq (exchanges_resumeOpening b o)
  | aside same => exact .of_eq same

end ServiceBus.Bus
