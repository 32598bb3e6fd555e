import ServiceBus.Proofs.Bus.Queues
import ServiceBus.Proofs.Bus.Tracked

/-!
# How an exchange gets to its provider

On its way an exchange is dispatched, written down if it is to persist, counted in flight and then
given to a processor or put into a queue, if need be after its sender has stood in line; a tracker
sees to it that it is counted out again. `Passage` says for every step how far it takes an exchange
on this way, and `Rests` that a turn takes none any further. What is known of deliveries is then
shown step by step without opening a send again.
-/

namespace ServiceBus

/-- Whether the job has a delivery before it or follows one. -/
def Job.isBusy : Job → Bool
  | .sending (.persisting ..) | .sending (.queueing ..) | .tracking _ => true
  | _ => false

theorem Job.not_isBusy_of_isPlain {j : Job} (h : j.isPlain = true) : j.isBusy = false := by
  cases j <;> first | rfl | cases h

namespace Bus
variable {b b' b'' : Bus} {x q : Nat} {come jobs : List Job}

/-! ### Turns that take no exchange further -/

/-- From `b` to `b'` nothing is delivered, and nothing is counted in flight or out of it. -/
structure Rests (b b' : Bus) : Prop extends Evolves b b' where
  settings_eq : b'.settings = b.settings
  inFlight_eq : b'.inFlight = b.inFlight
  duties_eq : b'.duties = b.duties
  takes : b.Takes b'

namespace Rests

theorem of_ledger (he : Evolves b b') (hl : b'.ledger = b.ledger) (takes : b.Takes b') :
    Rests b b' where
  toEvolves := he
  settings_eq := congrArg Ledger.settings hl
  inFlight_eq := congrArg Ledger.inFlight hl
  duties_eq := duties_of_ledger hl
  takes := takes

theorem of_stirs (h : Stirs b b') (takes : b.Takes b') : Rests b b' :=
  of_ledger h.toEvolves h.ledger_eq takes

theorem of_moved {c : Change} (h : Moved b x c b') : Rests b b' :=
  of_ledger h.toEvolves h.ledger_eq (.of_eq h.queues_eq)

theorem of_calls (h : Calls b b') : Rests b b' where
  toEvolves := h.evolves
  settings_eq := h.settings_eq
  inFlight_eq := h.inFlight_eq
  duties_eq := h.duties_eq
  takes := .of_eq h.queues_eq

theorem refl (b : Bus) : Rests b b := of_calls (.refl b)

theorem trans (h : Rests b b') (k : Rests b' b'') : Rests b b'' where
  toEvolves := h.toEvolves.trans k.toEvolves
  settings_eq := k.settings_eq.trans h.settings_eq
  inFlight_eq := k.inFlight_eq.trans h.inFlight_eq
  duties_eq := k.duties_eq.trans h.duties_eq
  takes := h.takes.trans k.takes

theorem failQuietly (b : Bus) (x : Nat) (cause : String) : Rests b (b.failQuietly x cause) :=
  of_stirs (.failQuietly b x cause) (.of_eq rfl)

theorem finish (hx : x < b.exchanges.size) (run : Nat) (awaited : Bool) (o : Outcome) :
    Rests b (b.finish x run awaited o) where
  toEvolves := .finish b x run awaited o
  settings_eq := (Spares.finish hx run awaited o).settings_eq
  inFlight_eq := (Spares.finish hx run awaited o).inFlight_eq
  duties_eq := duties_finish hx run awaited o
  takes := .of_eq (queues_eq_finish b x run awaited o)

theorem respond (hx : x < b.exchanges.size) : Rests b (b.respond x).1 := by
  obtain ⟨r, h⟩ | ⟨b', moved, h⟩ := respond_cases hx <;> rw [h]
  · exact refl b
  · split
    · exact (of_moved moved).trans (of_calls (.persist b' x))
    · exact of_moved moved

theorem awaitProcessor (h : b.Dispatched x) (run deadline : Nat) :
    Rests b (b.awaitProcessor x run deadline).1 ∧
      ∀ j ∈ (b.awaitProcessor x run deadline).2.jobs .sending, j.isBusy = false := by
  obtain ⟨b', r, e, -, stirs | moved⟩ | ⟨seen, -, e⟩ :=
    awaitProcessor_cases h.lt_size h.sent run deadline
  · have takes : b.Takes b' := .of_eq (by rw [← queues_eq_awaitProcessor b x run deadline, e])
    rw [e]
    exact ⟨of_stirs stirs takes, by simp [Turn.jobs]⟩
  · rw [e]
    exact ⟨of_moved moved, by simp [Turn.jobs]⟩
  · rw [e]
    exact ⟨refl b, by simp [Turn.jobs, Job.isBusy]⟩

theorem awaitReply (b : Bus) (x deadline : Nat) : Rests b (b.awaitReply x deadline).1 ∧
    ∀ j ∈ (b.awaitReply x deadline).2.jobs .sending, j.isBusy = false := by
  refine ⟨of_stirs (.awaitReply b x deadline) (.of_eq (queues_eq_awaitReply b x deadline)), ?_⟩
  unfold Bus.awaitReply
  split
  · simp [Turn.jobs]
  · split <;> simp [timedOut, Turn.jobs, Job.isBusy]

theorem queued (b : Bus) (x : Nat) : Rests b (b.queued x).1 ∧
    ∀ j ∈ (b.queued x).2.jobs .sending, j.isBusy = false := by
  unfold Bus.queued
  split
  · exact awaitReply b x _
  · exact ⟨refl b, by simp [Turn.jobs]⟩

theorem refuseQueue (hx : x < b.exchanges.size) (e : RouterError) :
    Rests b (b.refuseQueue x e).1 ∧ ((b.refuseQueue x e).1.exchange x).status ≠ .active :=
  ⟨failQuietly b x _, terminal_failQuietly hx _⟩

end Rests

/-! ### Giving away -/

/-- What comes of giving `x` to a processor or a queue: a processor is launched, `x` is put into the
queue, its sender gets in line, or `x` is refused and ends. -/
inductive Lands (b : Bus) (x : Nat) : Bus → List Job → Prop
  | launches {run n : Nat} {awaited : Bool} {b' : Bus} {come : List Job}
    (rests : Rests (b.launch (.processor run n x awaited)) b')
    (come_idle : ∀ j ∈ come, j.isBusy = false) : Lands b x b' come
  | enters {q : Nat} {p : PullQueue} {b' : Bus} {come : List Job} (there : q < b.queues.length)
    (put : p.items = (b.queue q).items ++ [x]) (rests : Rests (b.setQueue q p) b')
    (queues_eq : b'.queues = (b.setQueue q p).queues)
    (come_idle : ∀ j ∈ come, j.isBusy = false) : Lands b x b' come
  | linesUp {c : ComponentId} {q ticket : Nat} {b' : Bus} (rests : Rests b b') :
    Lands b x b' [.sending (.queueing x c q ticket)]
  | refused {b' : Bus} (rests : Rests b b') (ended : (b'.exchange x).status ≠ .active) :
    Lands b x b' []

theorem lt_length_of_offer? {p : PullQueue} (h : (b.queue q).offer? x = some p) :
    q < b.queues.length := by
  refine Nat.lt_of_not_le fun hq => ?_
  rw [queue_eq_default hq] at h
  cases h

theorem lt_length_of_use? {ticket : Nat} {p : PullQueue}
    (h : (b.queue q).use? ticket x = some p) : q < b.queues.length := by
  refine Nat.lt_of_not_le fun hq => ?_
  rw [queue_eq_default hq] at h
  cases h

namespace Lands

theorem enqueue (hx : x < b.exchanges.size) (c : ComponentId) (q : Nat) (ticket : Option Nat) :
    Lands b x (b.enqueue x c q ticket).1 ((b.enqueue x c q ticket).2.jobs .sending) := by
  have forgone : Rests b (b.forgo q ticket) := .of_stirs (.forgo b q ticket) (.forgo b q ticket)
  have hx' : x < (b.forgo q ticket).exchanges.size := Nat.lt_of_lt_of_le hx forgone.size_le
  have enters {p : PullQueue} (there : q < b.queues.length)
      (put : p.items = (b.queue q).items ++ [x]) :
      Lands b x ((b.setQueue q p).queued x).1 (((b.setQueue q p).queued x).2.jobs .sending) := by
    obtain ⟨rests, idle⟩ := Rests.queued (b.setQueue q p) x
    exact .enters there put rests (queues_eq_queued _ x) idle
  unfold Bus.enqueue
  -- refused for the shutdown, refused for the connection, then with or without a place in line
  split
  · obtain ⟨rests, ended⟩ := Rests.refuseQueue hx' .shuttingDown
    exact .refused (forgone.trans rests) ended
  · split
    · obtain ⟨rests, ended⟩ := Rests.refuseQueue hx' (.notConnected c)
      exact .refused (forgone.trans rests) ended
    · split <;> split
      · next p h => exact enters (lt_length_of_offer? h) (PullQueue.items_of_offer? h)
      · exact .linesUp (.of_stirs ((Stirs.take b).trans (.setQueue _ q _)) (.trans (.of_eq rfl)
          (.reset rfl)))
      · next p h => exact enters (lt_length_of_use? h) (PullQueue.items_of_use? h)
      · exact .linesUp (.refl b)

theorem deliver (h : b.Dispatched x) (t : Endpoint) (d : Delivery) :
    Lands (b.track x) x (b.deliver x t d).1 ((b.deliver x t d).2.jobs .sending) := by
  cases d with
  | pull q => exact enqueue (b := b.track x) h.lt_size _ q none
  | push n =>
    have started (awaited : Bool) :
        Rests ((b.track x).launch (.processor b.fresh n x awaited)) (b.started x n awaited) :=
      .of_ledger (.of_eq rfl) rfl (.of_eq rfl)
    rw [deliver_push]
    split
    · next hs =>
      have h' : (b.started x n true).Dispatched x := ⟨h.lt_size, h.sent⟩
      obtain ⟨rests, idle⟩ := Rests.awaitProcessor h' b.fresh (b.now + b.settings.syncTimeout)
      exact .launches ((started true).trans rests) idle
    · exact .launches (started false) (by simp [Turn.jobs])

end Lands

/-! ### Following -/

/-- `x` has ended, or its tracker has asked the store before to remove it. -/
def Over (b : Bus) (jobs : List Job) (x : Nat) : Prop :=
  (b.exchange x).status ≠ .active ∨ ∃ a, .tracking (.removing x a) ∈ jobs

/-- What a turn of the tracker of `x` comes to: it goes on, or counts `x` out of flight. -/
inductive Pursues (b : Bus) (jobs : List Job) (x : Nat) : Bus → List Job → Prop
  | on {u : Tracking} {b' : Bus} (calls : Calls b b') (exchange : u.exchange = x)
    (through : ∀ a, u = .removing x a → b.Over jobs x) : Pursues b jobs x b' [.tracking u]
  | off {b' : Bus} (calls : Calls b b') (through : b.Over jobs x) :
    Pursues b jobs x (b'.untrack x) []

theorem Follows.pursues {persisted : Bool} (h : Follows b x persisted b' come)
    (dispatched : b.Dispatched x) (jobs : List Job) : Pursues b jobs x b' come := by
  cases h with
  | watches => exact .on (.refl b) rfl fun _ => nofun
  | asks reached _ call =>
    exact .on (.of_turn call (.callStore b _ _)) rfl fun _ _ => .inl (dispatched.ended reached)
  | removes reached _ call =>
    exact .off (.of_turn call (.callStore b _ _)) (.inl (dispatched.ended reached))
  | leaves reached => exact .off (.refl b) (.inl (dispatched.ended reached))

theorem pursues_resumeTracking {u : Tracking} (dispatched : b.Dispatched u.exchange)
    (hu : .tracking u ∈ jobs) : Pursues b jobs u.exchange (b.resumeTracking u).1
      ((b.resumeTracking u).2.jobs .tracking) := by
  cases u with
  | watching x persisted seen => exact (follows b x persisted).pursues dispatched jobs
  | removing x a =>
    have calls := Calls.resumeAccess b a
    have through : b.Over jobs x := .inr ⟨a, hu⟩
    show Pursues b jobs x ((b.resumeAccess a).1.removed x (b.resumeAccess a).2).1
      (((b.resumeAccess a).1.removed x (b.resumeAccess a).2).2.jobs .tracking)
    generalize b.resumeAccess a = r at calls
    obtain ⟨b', r | a'⟩ := r
    · exact .off calls through
    · exact .on calls rfl fun _ _ => through

end Bus

/-! ### Steps -/

namespace Traffic
variable {s s' : Traffic} {d : Deed} {b : Bus} {jobs : List Job} {x : Nat}
open Bus

/-- A turn of the send of `x` at which it is being written down: that has come to `r` and left `b`,
and the send goes on from there (`Bus.persisted`). -/
inductive Submits (s : Traffic) (x : Nat) (t : Endpoint) (dl : Delivery) :
    Deed → Bus → Turn Access StoreAnswer → List Job → Prop
  | spared {b : Bus} (moved : Moved s.bus x (.dispatch t) b) (spared : b.persists x = false)
    (turn : s.bus.send x = b.persisted x t dl (.ended (.ok none))) :
    Submits s x t dl (.ask (.send x)) b (.ended (.ok none)) s.jobs
  | begun {b₁ b : Bus} {r : Turn Access StoreAnswer} (moved : Moved s.bus x (.dispatch t) b₁)
    (persists : b₁.persists x = true) (call : b₁.persist x = (b, r))
    (turn : s.bus.send x = b.persisted x t dl r) : Submits s x t dl (.ask (.send x)) b r s.jobs
  | resumed {a : Access} {b : Bus} {r : Turn Access StoreAnswer} {others : List Job}
    (job : s.jobs.Perm (.sending (.persisting x t dl a) :: others))
    (call : s.bus.resumeAccess a = (b, r)) :
    Submits s x t dl (.resume (.sending (.persisting x t dl a))) b r others

/-- How far a step takes an exchange on its way. -/
inductive Passage (s : Traffic) : Deed → Bus → List Job → Prop
  /-- No further. -/
  | aside {d : Deed} {b : Bus} {others : List Job} (gone come : List Job) (rests : Rests s.bus b)
    (deed : ∀ l, l.isDuty = true → d ≠ .take l) (jobs : s.jobs.Perm (gone ++ others))
    (come_idle : ∀ j ∈ come, j.isBusy = false) (kept : ∀ u, .tracking u ∉ gone) :
    Passage s d b (come ++ others)
  | waits {x : Nat} {t : Endpoint} {dl : Delivery} {d : Deed} {b : Bus} {a : Access}
    {others : List Job} (submits : s.Submits x t dl d b (.waiting a) others) :
    Passage s d b (.sending (.persisting x t dl a) :: others)
  | refused {x : Nat} {t : Endpoint} {dl : Delivery} {d : Deed} {b b' : Bus} {e : StoreError}
    {others : List Job} (submits : s.Submits x t dl d b (.ended (.error e)) others)
    (rests : Rests b b') (ended : (b'.exchange x).status ≠ .active) : Passage s d b' others
  | lands {x : Nat} {t : Endpoint} {dl : Delivery} {d : Deed} {b b' : Bus} {v : Option Json}
    {come others : List Job} (submits : s.Submits x t dl d b (.ended (.ok v)) others)
    (lands : Lands (b.track x) x b' come) : Passage s d b' (come ++ others)
  | queues {x : Nat} {c : ComponentId} {q ticket : Nat} {b : Bus} {come others : List Job}
    (job : s.jobs.Perm (.sending (.queueing x c q ticket) :: others))
    (lands : Lands s.bus x b come) :
    Passage s (.resume (.sending (.queueing x c q ticket))) b (come ++ others)
  | begins {run n x : Nat} {awaited : Bool} {before after : List Launch}
    (launched : s.bus.launched = before ++ .processor run n x awaited :: after) :
    Passage s (.take (.processor run n x awaited)) (s.bus.leaving (before ++ after))
      (.processing run n x awaited :: s.jobs)
  | tracks {x : Nat} {persisted : Bool} {before after : List Launch} {b : Bus} {come : List Job}
    (launched : s.bus.launched = before ++ .tracker x persisted :: after)
    (pursues : (s.bus.leaving (before ++ after)).Pursues s.jobs x b come) :
    Passage s (.take (.tracker x persisted)) b (come ++ s.jobs)
  | follows {u : Tracking} {b : Bus} {come others : List Job}
    (job : s.jobs.Perm (.tracking u :: others)) (pursues : s.bus.Pursues s.jobs u.exchange b come) :
    Passage s (.resume (.tracking u)) b (come ++ others)

/-- The first turn of a send answers, or hands a reply back, or begins to write its exchange down. -/
theorem send_turn (hx : x < s.bus.exchanges.size) :
    (∃ b r, Stirs s.bus b ∧ b.queues = s.bus.queues ∧ s.bus.send x = (b, .ended r)) ∨
    s.bus.send x = s.bus.respond x ∨
    ∃ t dl b r, b.Dispatched x ∧ s.Submits x t dl (.ask (.send x)) b r s.jobs ∧
      s.bus.send x = b.persisted x t dl r := by
  obtain h | ⟨-, h⟩ | ⟨selector, t, dl, -, turn⟩ := send_cases s.bus x
  · exact .inl h
  · exact .inr (.inl h)
  obtain ⟨r, h⟩ | ⟨b, moved, h⟩ := dispatch_cases (b := { s.bus with selector }) hx t dl
  · refine .inl ⟨{ s.bus with selector }, r, .of_eq rfl rfl (Nat.le_refl _), rfl, ?_⟩
    exact turn.trans h
  have dispatched : b.Dispatched x := ⟨Nat.lt_of_lt_of_le hx moved.size_le, moved.sent⟩
  have moved := moved.from_selector
  rw [← turn] at h
  split at h
  · next persists =>
    exact .inr (.inr ⟨t, dl, _, _, dispatched.evolves (Calls.persist b x).evolves,
      .begun moved persists rfl h, h⟩)
  · next spared =>
    have turn : s.bus.send x = b.persisted x t dl (.ended (.ok none)) := h
    exact .inr (.inr ⟨t, dl, _, _, dispatched,
      .spared moved (Bool.eq_false_iff.2 spared) turn, turn⟩)

theorem not_isBusy_replied (b : Bus) (x : Nat) (t : Turn Access StoreAnswer) :
    ∀ j ∈ (b.replied x t).jobs .sending, j.isBusy = false := by
  rw [jobs_replied]
  intro j hj
  obtain ⟨a, -, rfl⟩ := Turn.mem_jobs.1 hj
  rfl

namespace Passage

theorem persisted {t : Endpoint} {dl : Delivery} {r : Turn Access StoreAnswer} {others : List Job}
    (submits : s.Submits x t dl d b r others) (dispatched : b.Dispatched x) :
    s.Passage d (b.persisted x t dl r).1 ((b.persisted x t dl r).2.jobs .sending ++ others) := by
  match r with
  | .waiting a => exact .waits submits
  | .ended (.ok v) => exact .lands submits (.deliver dispatched t dl)
  | .ended (.error e) =>
    exact .refused submits (.failQuietly b x _) (terminal_failQuietly dispatched.lt_size _)

theorem respond (hx : x < s.bus.exchanges.size) (deed : ∀ l, l.isDuty = true → d ≠ .take l) :
    s.Passage d (s.bus.respond x).1 ((s.bus.respond x).2.jobs .sending ++ s.jobs) := by
  refine .aside [] _ (.respond hx) deed (.refl _) ?_ (by simp)
  obtain ⟨r, h⟩ | ⟨b', -, h⟩ := respond_cases hx <;> rw [h]
  · simp [Turn.jobs]
  · split
    · exact not_isBusy_replied _ x _
    · simp [Turn.jobs]

theorem send (hx : x < s.bus.exchanges.size) :
    s.Passage (.ask (.send x)) (s.bus.send x).1 ((s.bus.send x).2.jobs .sending ++ s.jobs) := by
  obtain ⟨b, r, stirs, queues, h⟩ | h | ⟨t, dl, b, r, dispatched, submits, h⟩ := send_turn hx <;>
    rw [h]
  · exact .aside [] [] (.of_stirs stirs (.of_eq queues)) (fun _ _ => nofun) (.refl _) (by simp)
      (by simp)
  · exact respond hx fun _ _ => nofun
  · exact persisted submits dispatched

theorem resumeSend {c : Sending} {others : List Job} (job : s.jobs.Perm (.sending c :: others))
    (ordered : s.bus.Orderly s.jobs) : s.Passage (.resume (.sending c)) (s.bus.resumeSend c).1
      ((s.bus.resumeSend c).2.jobs .sending ++ others) := by
  have dispatched {x : Nat} (hc : c.Concerns x) : s.bus.Dispatched x :=
    ordered x (.inl ⟨_, job.mem_iff.2 List.mem_cons_self, hc⟩)
  cases c with
  | persisting x t dl a =>
    exact persisted (.resumed job rfl)
      ((dispatched rfl).evolves (Calls.resumeAccess s.bus a).evolves)
  | processing x run deadline seen =>
    obtain ⟨rests, idle⟩ := Rests.awaitProcessor (dispatched rfl) run deadline
    exact .aside [_] _ rests (fun _ _ => nofun) job idle (by simp)
  | queueing x c q ticket => exact .queues job (.enqueue (dispatched rfl).lt_size c q (some ticket))
  | replying x deadline seen =>
    obtain ⟨rests, idle⟩ := Rests.awaitReply s.bus x deadline
    exact .aside [_] _ rests (fun _ _ => nofun) job idle (by simp)
  | responding x a =>
    exact .aside [_] _ (.of_calls (.resumeAccess s.bus a)) (fun _ _ => nofun) job
      (not_isBusy_replied _ x _) (by simp)

end Passage

theorem Step.passage (h : s.Step d s') (ordered : s.bus.Orderly s.jobs) :
    s.Passage d s'.bus s'.jobs := by
  have event := h.event
  have takes := h.takes
  obtain ⟨b, jobs, log⟩ := s'
  cases event with
  | plain gone come deed stirs jobs come_plain gone_plain =>
    refine .aside gone come (.of_stirs stirs (takes deed)) (fun l hl e => ?_) jobs
      (fun j hj => Job.not_isBusy_of_isPlain (come_plain j hj)) fun u hu => ?_
    · rw [e, Deed.isPlain, hl] at deed
      cases deed
    · obtain h | ⟨h, -⟩ := gone_plain _ hu <;> cases h
  | send hx => exact .send hx
  | respond hx => exact .respond hx fun _ _ => nofun
  | resumeSend job => exact .resumeSend job ordered
  | retrieve id =>
    refine .aside [] _ (.of_calls (.retrieve s.bus id)) (fun _ _ => nofun) (.refl _)
      (fun j hj => ?_) (by simp)
    obtain ⟨a, -, rfl⟩ := Turn.mem_jobs.1 hj
    rfl
  | @resumeRetrieve a others job =>
    refine .aside [_] _ (.of_calls (.resumeAccess s.bus a)) (fun _ _ => nofun) job
      (fun j hj => ?_) (by simp)
    obtain ⟨a, -, rfl⟩ := Turn.mem_jobs.1 hj
    rfl
  | @track x persisted before others launched =>
    have dispatched := ordered x (.inr ⟨_, mem_duties_of_launched launched rfl, rfl⟩)
    have follows := Bus.follows (s.bus.leaving (before ++ others)) x persisted
    exact .tracks launched (follows.pursues (dispatched.evolves (.of_eq rfl)) _)
  | @resumeTracking u others job =>
    have hu := job.mem_iff.2 List.mem_cons_self
    exact .follows job (pursues_resumeTracking (ordered _ (.inl ⟨_, hu, rfl⟩)) hu)
  | process launched => exact .begins launched
  | @finish run n x awaited others o job =>
    have dispatched := ordered x (.inl ⟨_, job.mem_iff.2 List.mem_cons_self, rfl⟩)
    exact .aside [_] [] (.finish dispatched.lt_size run awaited o) (fun _ _ => nofun) job (by simp)
      (by simp)
  | serve =>
    exact .aside [] [] ⟨.of_eq rfl, rfl, rfl, rfl, .of_eq rfl⟩ (fun _ _ => nofun) (.refl _)
      (by simp) (by simp)

end Traffic
end ServiceBus
