import ServiceBus.Proofs.Bus.Dispatched
import ServiceBus.Proofs.Store.Kept

/-!
# Steps that concern the store or a tracker

Most of what happens on a bus spares the store, the trackers and what is in flight (`Spares`).
`Affair` tells the steps apart that do not: dispatching, writing down, handing a reply back,
retrieving and following. What the store keeps and what is followed can then be told without opening
a send again.
-/

namespace ServiceBus

/-- Whether the launched work is to follow an exchange. -/
def Launch.isTracker : Launch → Bool
  | .tracker .. => true
  | _ => false

/-- Whether the job neither calls the store nor follows an exchange. -/
def Job.isIdle : Job → Bool
  | .sending (.persisting ..) | .sending (.responding ..) | .retrieving _ | .tracking _ => false
  | _ => true

theorem Job.isIdle_of_isPlain {j : Job} (h : j.isPlain = true) : j.isIdle = true := by
  cases j <;> first | rfl | cases h

theorem Sending.Queues.isIdle {c : Sending} {x : Nat} (h : c.Queues x) :
    (Job.sending c).isIdle = true := by
  cases c <;> first | rfl | exact h.elim

namespace Bus
variable {b b' b'' : Bus} {x : Nat}

/-- The trackers that have not set out yet. -/
def trackers (b : Bus) : List Launch := b.duties.filter Launch.isTracker

/-- From `b` to `b'` nothing has happened to the store, the trackers and what is in flight, and
exchanges have changed hands only in being handed back. -/
structure Spares (b b' : Bus) : Prop extends Evolves b b' where
  hops_cases : ∀ x, x < b.exchanges.size → (b'.exchange x).hops = (b.exchange x).hops ∨
    ((b.exchange x).hops = 1 ∧ (b'.exchange x).hops = 2)
  settings_eq : b'.settings = b.settings
  inFlight_eq : b'.inFlight = b.inFlight
  stores_eq : b'.stores = b.stores
  files_eq : b'.files = b.files
  asked_eq : b'.asked = b.asked
  trackers_eq : b'.trackers = b.trackers
  fresh_le : b.fresh ≤ b'.fresh

namespace Spares

theorem of_ledger (he : Evolves b b') (hl : b'.ledger = b.ledger) (hf : b.fresh ≤ b'.fresh)
    (hh : ∀ x, x < b.exchanges.size → (b'.exchange x).hops = (b.exchange x).hops ∨
      ((b.exchange x).hops = 1 ∧ (b'.exchange x).hops = 2)) : Spares b b' where
  toEvolves := he
  hops_cases := hh
  settings_eq := congrArg Ledger.settings hl
  inFlight_eq := congrArg Ledger.inFlight hl
  stores_eq := congrArg Ledger.stores hl
  files_eq := congrArg Ledger.files hl
  asked_eq := congrArg Ledger.asked hl
  trackers_eq := congrArg (fun l : Ledger => l.duties.filter Launch.isTracker) hl
  fresh_le := hf

theorem of_stirs (h : Stirs b b') : Spares b b' :=
  of_ledger h.toEvolves h.ledger_eq h.fresh_le fun x hx => .inl (h.hops_eq x hx)

theorem of_handBack (h : Moved b x .handBack b') : Spares b b' := by
  refine of_ledger h.toEvolves h.ledger_eq (Nat.le_of_eq h.fresh_eq.symm) fun y _ => ?_
  by_cases hy : y = x
  · obtain ⟨z, hz, e⟩ := h.moves
    subst hy
    rw [e]
    cases hz with
    | handBack owner hops reply => exact .inr ⟨hops, rfl⟩
  · exact .inl (by rw [h.others_eq y hy])

theorem refl (b : Bus) : Spares b b := of_stirs (.refl b)

theorem trans (h : Spares b b') (k : Spares b' b'') : Spares b b'' where
  toEvolves := h.toEvolves.trans k.toEvolves
  hops_cases x hx := by
    have hk := k.hops_cases x (Nat.lt_of_lt_of_le hx h.size_le)
    have hh := h.hops_cases x hx
    omega
  settings_eq := k.settings_eq.trans h.settings_eq
  inFlight_eq := k.inFlight_eq.trans h.inFlight_eq
  stores_eq := k.stores_eq.trans h.stores_eq
  files_eq := k.files_eq.trans h.files_eq
  asked_eq := k.asked_eq.trans h.asked_eq
  trackers_eq := k.trackers_eq.trans h.trackers_eq
  fresh_le := Nat.le_trans h.fresh_le k.fresh_le

theorem rewrites (h : Spares b b') : Rewrites b b.kept? b' :=
  .of_eq h.settings_eq h.stores_eq h.files_eq

theorem kept?_tracked (h : Spares (b.track x) b') (i : String) : b'.kept? i = b.kept? i :=
  h.rewrites.kept_eq i

theorem settle (hx : x < b.exchanges.size) (run : Nat) (o : Outcome) :
    Spares b (b.settle x run o).1 :=
  (settle_turn hx run o).elim of_stirs of_handBack

theorem finish (hx : x < b.exchanges.size) (run : Nat) (awaited : Bool) (o : Outcome) :
    Spares b (b.finish x run awaited o) := by
  unfold Bus.finish
  split
  · exact { refl b with toEvolves := .of_eq rfl }
  · split
    · exact refl b
    · exact settle hx run _

/-- Awaiting a processor, and what is left of it. -/
theorem awaitProcessor (h : b.Dispatched x) (run deadline : Nat) :
    Spares b (b.awaitProcessor x run deadline).1 ∧
      ∀ j ∈ (b.awaitProcessor x run deadline).2.jobs .sending, j.isIdle = true := by
  obtain ⟨b', r, e, -, ht | ht⟩ | ⟨seen, -, e⟩ :=
    awaitProcessor_cases h.lt_size h.sent run deadline <;> rw [e]
  · exact ⟨of_stirs ht, by simp [Turn.jobs]⟩
  · exact ⟨of_handBack ht, by simp [Turn.jobs]⟩
  · exact ⟨refl b, by simp [Turn.jobs, Job.isIdle]⟩

theorem process {run n : Nat} {awaited : Bool} {before after : List Launch}
    (launched : b.launched = before ++ .processor run n x awaited :: after) :
    Spares b (b.leaving (before ++ after)) where
  toEvolves := .of_eq rfl
  hops_cases _ _ := .inl rfl
  settings_eq := rfl
  inFlight_eq := rfl
  stores_eq := rfl
  files_eq := rfl
  asked_eq := rfl
  trackers_eq := by simp [trackers, duties, leaving, launched, Launch.isTracker]
  fresh_le := Nat.le_refl _

theorem started (b : Bus) (x n : Nat) (awaited : Bool) :
    Spares (b.track x) (b.started x n awaited) where
  toEvolves := .of_eq rfl
  hops_cases _ _ := .inl rfl
  settings_eq := rfl
  inFlight_eq := rfl
  stores_eq := rfl
  files_eq := rfl
  asked_eq := rfl
  trackers_eq := by
    rw [trackers, trackers, duties_started, duties_track, List.filter_append, List.filter_append]
    rfl
  fresh_le := Nat.le_succ _

/-- Once a delivery is tracked it spares everything else. -/
theorem deliver (h : b.Dispatched x) (t : Endpoint) (d : Delivery) :
    Spares (b.track x) (b.deliver x t d).1 ∧
      ∀ j ∈ (b.deliver x t d).2.jobs .sending, j.isIdle = true := by
  obtain ⟨n, e⟩ | ⟨n, deadline, e⟩ | ⟨hs, hq⟩ := deliver_cases b x t d
  · rw [e]
    exact ⟨started b x n false, by simp [Turn.jobs]⟩
  · rw [e]
    have hd : (b.started x n true).Dispatched x := ⟨h.lt_size, h.sent⟩
    obtain ⟨ha, hj⟩ := awaitProcessor hd b.fresh deadline
    exact ⟨(started b x n true).trans ha, hj⟩
  · refine ⟨of_stirs hs, fun j hj => ?_⟩
    obtain ⟨c, hc, rfl⟩ := Turn.mem_jobs.1 hj
    exact (hq c hc).isIdle

end Spares

/-! ### Following -/

/-- What a tracker's turn comes to: it watches on, waits for the store, or is done. -/
inductive Follows (b : Bus) (x : Nat) : Bool → Bus → List Job → Prop
  | watches {persisted : Bool} :
    Follows b x persisted b [.tracking (.watching x persisted (b.progress x))]
  | asks {n : Nat} {b' : Bus} {a : Access} (ended : b.reached x .completion = true)
    (store : b.settings.store = some n)
    (call : b.callStore n (.remove (b.exchange x).id) = (b', .waiting a)) :
    Follows b x true b' [.tracking (.removing x a)]
  | removes {n : Nat} {b' : Bus} {r : StoreAnswer} (ended : b.reached x .completion = true)
    (store : b.settings.store = some n)
    (call : b.callStore n (.remove (b.exchange x).id) = (b', .ended r)) :
    Follows b x true (b'.untrack x) []
  | leaves {persisted : Bool} (ended : b.reached x .completion = true)
    (unkept : persisted = false ∨ b.settings.store = none) :
    Follows b x persisted (b.untrack x) []

theorem follows (b : Bus) (x : Nat) (persisted : Bool) :
    Follows b x persisted (b.follow x persisted).1
      ((b.follow x persisted).2.jobs .tracking) := by
  unfold follow
  split
  · next ended =>
    split
    · next n store =>
      cases persisted with
      | false => exact .leaves ended (.inl rfl)
      | true =>
        simp only [if_true]
        generalize hc : b.callStore n (.remove (b.exchange x).id) = r
        obtain ⟨b', t⟩ := r
        cases t with
        | waiting a => exact .asks ended store hc
        | ended r => exact .removes ended store hc
    · next store => exact .leaves ended (.inr store)
  · exact .watches

end Bus

/-- The deed hands a reply of `x` back, if that is possible. -/
def Deed.Replies (b : Bus) (x : Nat) : Deed → Prop
  | .ask (.respond y) => y = x
  | .ask (.send y) => y = x ∧ (b.exchange x).owner = .provider
  | _ => False

theorem Deed.Replies.eq {d : Deed} {b : Bus} {x y : Nat} (h : d.Replies b x) (k : d.Replies b y) :
    y = x := by
  cases d with
  | ask r =>
    cases r with
    | respond z => exact k.symm.trans h
    | send z => exact k.1.symm.trans h.1
    | _ => exact h.elim
  | _ => exact h.elim

theorem Bus.Moved.from_selector {b b' : Bus} {selector : Selector} {x : Nat} {c : Change}
    (h : Moved { b with selector } x c b') : Moved b x c b' where
  toEvolves := h.toEvolves.from_eq rfl
  lt_size := h.lt_size
  ledger_eq := h.ledger_eq
  queues_eq := h.queues_eq
  fresh_eq := h.fresh_eq
  active := h.active
  moves := h.moves
  others_eq := h.others_eq

/-- What is ready to be delivered at once has been written down by memory, or need not be. -/
theorem Bus.Calls.of_ready {b₁ b₂ : Bus} {x : Nat} (ready : (b₁.persists x = false ∧ b₂ = b₁) ∨
    ∃ v, b₁.persists x = true ∧ b₁.persist x = (b₂, .ended (.ok v))) : Bus.Calls b₁ b₂ := by
  obtain ⟨-, rfl⟩ | ⟨v, -, call⟩ := ready
  · exact .refl _
  · exact .of_turn call (.persist b₁ x)

namespace Traffic
variable {s s' : Traffic} {d : Deed} {b : Bus} {jobs : List Job}

open Bus in
/-- What a step comes to for the store and the trackers. -/
inductive Affair (s : Traffic) : Deed → Bus → List Job → Prop
  /-- Nothing of the kind. -/
  | aside {d : Deed} {b : Bus} {others : List Job} (gone come : List Job) (spares : Spares s.bus b)
    (replies : ∀ x, x < s.bus.exchanges.size → d.Replies s.bus x →
      (b.exchange x).hops = (s.bus.exchange x).hops ∨ b.persists x = false)
    (deed : ∀ x persisted, d ≠ .take (.tracker x persisted)) (jobs : s.jobs.Perm (gone ++ others))
    (come_idle : ∀ j ∈ come, j.isIdle = true)
    (gone_idle : ∀ j ∈ gone, j.isIdle = true ∨ (j.isCall = true ∧ d = .abandon j)) :
    Affair s d b (come ++ others)
  /-- A dispatched exchange is about to be written down. -/
  | writes {x : Nat} {t : Endpoint} {delivery : Delivery} {b₁ b : Bus} {a : Access}
    (moved : Moved s.bus x (.dispatch t) b₁) (persists : b₁.persists x = true)
    (call : b₁.persist x = (b, .waiting a)) :
    Affair s (.ask (.send x)) b (.sending (.persisting x t delivery a) :: s.jobs)
  /-- A dispatched exchange is delivered at once, if need be after memory has written it down. -/
  | delivers {x : Nat} {t : Endpoint} {b₁ b₂ b : Bus} {come : List Job}
    (moved : Moved s.bus x (.dispatch t) b₁)
    (ready : (b₁.persists x = false ∧ b₂ = b₁) ∨
      ∃ v, b₁.persists x = true ∧ b₁.persist x = (b₂, .ended (.ok v)))
    (spares : Spares (b₂.track x) b) (come_idle : ∀ j ∈ come, j.isIdle = true) :
    Affair s (.ask (.send x)) b (come ++ s.jobs)
  /-- Memory has refused to write down a dispatched exchange. -/
  | refused {x : Nat} {t : Endpoint} {b₁ b₂ b : Bus} {e : StoreError}
    (moved : Moved s.bus x (.dispatch t) b₁) (persists : b₁.persists x = true)
    (call : b₁.persist x = (b₂, .ended (.error e))) (stirs : Stirs b₂ b) :
    Affair s (.ask (.send x)) b s.jobs
  | writing {x : Nat} {t : Endpoint} {delivery : Delivery} {a a' : Access} {b : Bus}
    {others : List Job} (job : s.jobs.Perm (.sending (.persisting x t delivery a) :: others))
    (call : s.bus.resumeAccess a = (b, .waiting a')) :
    Affair s (.resume (.sending (.persisting x t delivery a))) b
      (.sending (.persisting x t delivery a') :: others)
  /-- An exchange has been written down and is delivered. -/
  | written {x : Nat} {t : Endpoint} {delivery : Delivery} {a : Access} {b₁ b : Bus}
    {v : Option Json} {come others : List Job}
    (job : s.jobs.Perm (.sending (.persisting x t delivery a) :: others))
    (call : s.bus.resumeAccess a = (b₁, .ended (.ok v))) (spares : Spares (b₁.track x) b)
    (come_idle : ∀ j ∈ come, j.isIdle = true) :
    Affair s (.resume (.sending (.persisting x t delivery a))) b (come ++ others)
  /-- An exchange could not be written down. -/
  | unwritten {x : Nat} {t : Endpoint} {delivery : Delivery} {a : Access} {b₁ b : Bus}
    {e : StoreError} {others : List Job}
    (job : s.jobs.Perm (.sending (.persisting x t delivery a) :: others))
    (call : s.bus.resumeAccess a = (b₁, .ended (.error e))) (stirs : Stirs b₁ b) :
    Affair s (.resume (.sending (.persisting x t delivery a))) b others
  /-- A reply has been handed back and is about to be written down. -/
  | replies {x : Nat} {d : Deed} {b₁ : Bus} (replies : d.Replies s.bus x)
    (moved : Moved s.bus x .handBack b₁) (persists : b₁.persists x = true) :
    Affair s d (b₁.persist x).1
      ((b₁.persist x).2.jobs (fun a => .sending (.responding x a)) ++ s.jobs)
  | replying {x : Nat} {a : Access} {others : List Job}
    (job : s.jobs.Perm (.sending (.responding x a) :: others)) :
    Affair s (.resume (.sending (.responding x a))) (s.bus.resumeAccess a).1
      ((s.bus.resumeAccess a).2.jobs (fun a => .sending (.responding x a)) ++ others)
  | retrieves (id : String) :
    Affair s (.ask (.retrieve id)) (s.bus.retrieve id).1
      ((s.bus.retrieve id).2.jobs .retrieving ++ s.jobs)
  | retrieving {a : Access} {others : List Job} (job : s.jobs.Perm (.retrieving a :: others)) :
    Affair s (.resume (.retrieving a)) (s.bus.resumeAccess a).1
      ((s.bus.resumeAccess a).2.jobs .retrieving ++ others)
  | tracks {x : Nat} {persisted : Bool} {before after : List Launch} {b : Bus} {come : List Job}
    (launched : s.bus.launched = before ++ .tracker x persisted :: after)
    (follows : Follows (s.bus.leaving (before ++ after)) x persisted b come) :
    Affair s (.take (.tracker x persisted)) b (come ++ s.jobs)
  | watching {x : Nat} {persisted : Bool} {seen : Progress} {others : List Job} {b : Bus}
    {come : List Job} (job : s.jobs.Perm (.tracking (.watching x persisted seen) :: others))
    (follows : Follows s.bus x persisted b come) :
    Affair s (.resume (.tracking (.watching x persisted seen))) b (come ++ others)
  | removing {x : Nat} {a a' : Access} {others : List Job} {b : Bus}
    (job : s.jobs.Perm (.tracking (.removing x a) :: others))
    (call : s.bus.resumeAccess a = (b, .waiting a')) :
    Affair s (.resume (.tracking (.removing x a))) b (.tracking (.removing x a') :: others)
  | removed {x : Nat} {a : Access} {others : List Job} {b : Bus} {r : StoreAnswer}
    (job : s.jobs.Perm (.tracking (.removing x a) :: others))
    (call : s.bus.resumeAccess a = (b, .ended r)) :
    Affair s (.resume (.tracking (.removing x a))) (b.untrack x) others

theorem jobs_replied (b : Bus) (x : Nat) (t : Turn Access StoreAnswer) :
    (b.replied x t).jobs .sending = t.jobs fun a => .sending (.responding x a) := by
  cases t with
  | waiting a => rfl
  | ended r => cases r <;> rfl

namespace Affair

theorem respond {x : Nat} (hx : x < s.bus.exchanges.size) (replies : d.Replies s.bus x)
    (deed : ∀ x persisted, d ≠ .take (.tracker x persisted)) :
    s.Affair d (s.bus.respond x).1 ((s.bus.respond x).2.jobs .sending ++ s.jobs) := by
  obtain ⟨r, h⟩ | ⟨b', moved, h⟩ := Bus.respond_cases hx <;> rw [h]
  · exact .aside [] [] (.refl _) (fun _ _ _ => .inl rfl) deed (.refl _) (by simp) (by simp)
  split
  · next persists =>
    rw [jobs_replied]
    exact .replies replies moved persists
  · next persists =>
    refine .aside [] [] (.of_handBack moved) (fun y _ hy => .inr ?_) deed (.refl _) (by simp)
      (by simp)
    rw [replies.eq hy]
    exact Bool.eq_false_iff.2 persists

theorem dispatch {x : Nat} {selector : Selector} (hx : x < s.bus.exchanges.size) (t : Endpoint)
    (delivery : Delivery) :
    s.Affair (.ask (.send x)) ({ s.bus with selector }.dispatch x t delivery).1
      (({ s.bus with selector }.dispatch x t delivery).2.jobs .sending ++ s.jobs) := by
  obtain ⟨r, h⟩ | ⟨b', moved, h⟩ :=
      Bus.dispatch_cases (b := { s.bus with selector }) hx t delivery <;> rw [h]
  · refine .aside [] [] (.of_stirs (.of_eq rfl rfl (Nat.le_refl _))) (fun _ _ _ => .inl rfl)
      (fun _ _ => nofun) (.refl _) (by simp) (by simp)
  have hd : b'.Dispatched x := ⟨Nat.lt_of_lt_of_le hx moved.size_le, moved.sent⟩
  split
  · next persists =>
    have hc := Bus.Calls.persist b' x
    generalize hp : b'.persist x = r at hc
    obtain ⟨b'', ⟨_ | v⟩ | a⟩ := r
    · exact .refused moved.from_selector persists hp (.failQuietly b'' x _)
    · obtain ⟨spares, idle⟩ := Bus.Spares.deliver (hd.evolves hc.evolves) t delivery
      exact .delivers moved.from_selector (.inr ⟨v, persists, hp⟩) spares idle
    · exact .writes moved.from_selector persists hp
  · next persists =>
    obtain ⟨spares, idle⟩ := Bus.Spares.deliver hd t delivery
    exact .delivers moved.from_selector (.inl ⟨Bool.eq_false_iff.2 persists, rfl⟩) spares idle

theorem send {x : Nat} (hx : x < s.bus.exchanges.size) :
    s.Affair (.ask (.send x)) (s.bus.send x).1 ((s.bus.send x).2.jobs .sending ++ s.jobs) := by
  obtain ⟨b', r, stirs, -, h⟩ | ⟨owner, h⟩ | ⟨selector, t, delivery, -, h⟩ :=
      Bus.send_cases s.bus x <;> rw [h]
  · exact .aside [] [] (.of_stirs stirs) (fun y hy _ => .inl (stirs.hops_eq y hy))
      (fun _ _ => nofun) (.refl _) (by simp) (by simp)
  · exact respond hx ⟨rfl, owner⟩ fun _ _ => nofun
  · exact dispatch hx t delivery

theorem resumeSend {c : Sending} {others : List Job} (job : s.jobs.Perm (.sending c :: others))
    (ordered : s.bus.Orderly s.jobs) :
    s.Affair (.resume (.sending c)) (s.bus.resumeSend c).1
      ((s.bus.resumeSend c).2.jobs .sending ++ others) := by
  have dispatched {x : Nat} (hc : c.Concerns x) : s.bus.Dispatched x :=
    ordered x (.inl ⟨_, job.mem_iff.2 List.mem_cons_self, hc⟩)
  cases c with
  | persisting x t delivery a =>
    have hc := Bus.Calls.resumeAccess s.bus a
    have hd := (dispatched rfl).evolves hc.evolves
    show s.Affair _ ((s.bus.resumeAccess a).1.persisted x t delivery (s.bus.resumeAccess a).2).1
      (((s.bus.resumeAccess a).1.persisted x t delivery (s.bus.resumeAccess a).2).2.jobs _ ++ _)
    generalize hr : s.bus.resumeAccess a = r at hd
    obtain ⟨b', ⟨_ | v⟩ | a'⟩ := r
    · exact .unwritten job hr (.failQuietly b' x _)
    · obtain ⟨spares, idle⟩ := Bus.Spares.deliver hd t delivery
      exact .written job hr spares idle
    · exact .writing job hr
  | processing x run deadline seen =>
    obtain ⟨spares, idle⟩ := Bus.Spares.awaitProcessor (dispatched rfl) run deadline
    exact .aside [_] _ spares (fun _ _ h => h.elim) (fun _ _ => nofun) job idle
      (by simp [Job.isIdle])
  | queueing x k q ticket =>
    have stirs := Bus.Stirs.enqueue s.bus x k q (some ticket)
    refine .aside [_] _ (.of_stirs stirs) (fun _ _ h => h.elim) (fun _ _ => nofun) job
      (fun j hj => ?_) (by simp [Job.isIdle])
    obtain ⟨c, hc, rfl⟩ := Turn.mem_jobs.1 hj
    exact (Bus.queues_enqueue hc).isIdle
  | replying x deadline seen =>
    have stirs := Bus.Stirs.awaitReply s.bus x deadline
    refine .aside [_] _ (.of_stirs stirs) (fun _ _ h => h.elim) (fun _ _ => nofun) job
      (fun j hj => ?_) (by simp [Job.isIdle])
    obtain ⟨c, hc, rfl⟩ := Turn.mem_jobs.1 hj
    exact (Bus.queues_awaitReply hc).isIdle
  | responding x a =>
    have hj : (s.bus.resumeSend (.responding x a)).2.jobs .sending =
        (s.bus.resumeAccess a).2.jobs fun a => .sending (.responding x a) :=
      jobs_replied _ x _
    rw [hj]
    exact .replying job

theorem resumeTracking {t : Tracking} {others : List Job}
    (job : s.jobs.Perm (.tracking t :: others)) :
    s.Affair (.resume (.tracking t)) (s.bus.resumeTracking t).1
      ((s.bus.resumeTracking t).2.jobs .tracking ++ others) := by
  cases t with
  | watching x persisted seen => exact .watching job (Bus.follows s.bus x persisted)
  | removing x a =>
    show s.Affair _ ((s.bus.resumeAccess a).1.removed x (s.bus.resumeAccess a).2).1
      (((s.bus.resumeAccess a).1.removed x (s.bus.resumeAccess a).2).2.jobs _ ++ _)
    generalize hr : s.bus.resumeAccess a = r
    obtain ⟨b', r | a'⟩ := r
    · exact .removed job hr
    · exact .removing job hr

end Affair

theorem Event.affair (h : s.Event d b jobs) (ordered : s.bus.Orderly s.jobs) :
    s.Affair d b jobs := by
  cases h with
  | plain gone come deed stirs jobs come_plain gone_plain =>
    refine .aside gone come (.of_stirs stirs) (fun x hx _ => .inl (stirs.hops_eq x hx))
      (fun x p e => by rw [e] at deed; cases deed) jobs
      (fun j hj => Job.isIdle_of_isPlain (come_plain j hj)) fun j hj => ?_
    exact (gone_plain j hj).imp_left Job.isIdle_of_isPlain
  | send hx => exact .send hx
  | respond hx => exact .respond hx rfl fun _ _ => nofun
  | resumeSend job => exact .resumeSend job ordered
  | retrieve id => exact .retrieves id
  | resumeRetrieve job => exact .retrieving job
  | track launched => exact .tracks launched (Bus.follows _ _ _)
  | resumeTracking job => exact .resumeTracking job
  | process launched =>
    exact .aside [] [_] (.process launched) (fun _ _ h => h.elim) (fun _ _ => nofun) (.refl _)
      (by simp [Job.isIdle]) (by simp)
  | @finish run n x awaited others o job =>
    have hx := ordered x (.inl ⟨_, job.mem_iff.2 List.mem_cons_self, rfl⟩)
    exact .aside [_] [] (.finish hx.lt_size run awaited o) (fun _ _ h => h.elim)
      (fun _ _ => nofun) job
      (by simp) (by simp [Job.isIdle])
  | serve =>
    exact .aside [] [] { Bus.Spares.refl s.bus with toEvolves := .of_eq rfl }
      (fun _ _ h => h.elim) (fun _ _ => nofun) (.refl _) (by simp) (by simp)

end Traffic
end ServiceBus
