import ServiceBus.Proofs.Bus.Traffic
import ServiceBus.Proofs.Bus.Turns

/-!
# Only what has been dispatched is delivered

A pending send, a tracker or a processor is about an exchange that a send has dispatched: nothing
else makes one (`Runs.orderly`). So whoever holds on to an exchange knows that it is with its
provider or back with its reply, and that what is published of it is how it stands.
-/

namespace ServiceBus

/-- The exchange that the send is about. -/
def Sending.exchange : Sending → Nat
  | .persisting x _ _ _ | .processing x _ _ _ | .queueing x _ _ _ | .replying x _ _
  | .responding x _ => x

/-- The exchange that the tracker is about. -/
def Tracking.exchange : Tracking → Nat
  | .watching x _ _ | .removing x _ => x

/-- The job is part of the delivery of `x`. -/
def Job.Serves (x : Nat) : Job → Prop
  | .sending c => c.Concerns x
  | .tracking t => t.exchange = x
  | .processing _ _ y _ => y = x
  | _ => False

/-- The launched work is part of the delivery of `x`. -/
def Launch.Serves (x : Nat) : Launch → Prop
  | .tracker y _ | .processor _ _ y _ => y = x
  | .closer _ => False

theorem Job.not_serves_of_plain {j : Job} (h : j.isPlain = true) (x : Nat) : ¬ j.Serves x := by
  cases j <;> first | exact id | cases h

theorem Sending.Concerns.eq {c : Sending} {x y : Nat} (h : c.Concerns x) (k : c.Concerns y) :
    y = x := by
  cases c <;> first | exact k.symm.trans h | exact h.elim

theorem Sending.Queues.concerns {c : Sending} {x : Nat} (h : c.Queues x) : c.Concerns x := by
  cases c <;> first | exact h | exact h.elim

theorem Launch.Serves.eq {l : Launch} {x y : Nat} (h : l.Serves x) (k : l.Serves y) : y = x := by
  cases l <;> first | exact k.symm.trans h | exact h.elim

namespace Bus
variable {b b' b'' : Bus} {x : Nat} {jobs new others : List Job} {t : Endpoint} {d : Delivery}

/-- A send has dispatched the exchange. -/
structure Dispatched (b : Bus) (x : Nat) : Prop where
  lt_size : x < b.exchanges.size
  sent : (b.exchange x).Sent

theorem Dispatched.evolves (h : b.Dispatched x) (he : Evolves b b') : b'.Dispatched x where
  lt_size := Nat.lt_of_lt_of_le h.lt_size he.size_le
  sent := h.sent.leads (he.leads x h.lt_size)

/-- Whatever these jobs and the launched work are about has been dispatched. -/
def Orderly (b : Bus) (jobs : List Job) : Prop :=
  ∀ x, ((∃ j ∈ jobs, j.Serves x) ∨ ∃ l ∈ b.duties, l.Serves x) → b.Dispatched x

theorem Orderly.mono (h : b.Orderly jobs) (hj : ∀ j ∈ others, j ∈ jobs ∨ ∀ x, ¬ j.Serves x)
    (hl : ∀ l ∈ b'.duties, l ∈ b.duties) (he : Evolves b b') : b'.Orderly others := by
  intro x hx
  refine (h x ?_).evolves he
  rcases hx with ⟨j, hm, hs⟩ | ⟨l, hm, hs⟩
  · exact .inl ⟨j, (hj j hm).resolve_right fun hn => hn x hs, hs⟩
  · exact .inr ⟨l, hl l hm, hs⟩

/-! ### What a turn may add -/

/-- From `b` to `b'`, where it has been dispatched, there is more work on `x` and on nothing
else. -/
structure Adds (b : Bus) (x : Nat) (b' : Bus) (new : List Job) : Prop extends Evolves b b' where
  duties : ∀ l ∈ b'.duties, l ∈ b.duties ∨ l.Serves x ∧ b'.Dispatched x
  jobs : ∀ j ∈ new, ∀ y, j.Serves y → y = x ∧ b'.Dispatched x

theorem Orderly.add (h : b.Orderly others) (ha : Adds b x b' new) : b'.Orderly (new ++ others) := by
  intro y hy
  have hold (hy : (∃ j ∈ others, j.Serves y) ∨ ∃ l ∈ b.duties, l.Serves y) : b'.Dispatched y :=
    (h y hy).evolves ha.toEvolves
  rcases hy with ⟨j, hj, hs⟩ | ⟨l, hl, hs⟩
  · rcases List.mem_append.1 hj with hj | hj
    · obtain ⟨rfl, hd⟩ := ha.jobs j hj y hs
      exact hd
    · exact hold (.inl ⟨j, hj, hs⟩)
  · rcases ha.duties l hl with hl | ⟨hx, hd⟩
    · exact hold (.inr ⟨l, hl, hs⟩)
    · obtain rfl := hx.eq hs
      exact hd

theorem duties_track (b : Bus) (x : Nat) :
    (b.track x).duties = b.duties ++ [.tracker x (b.persists x)] := by
  simp [duties, track, launch, Launch.isDuty]

theorem duties_started (b : Bus) (x n : Nat) (awaited : Bool) :
    (b.started x n awaited).duties =
      b.duties ++ [.tracker x (b.persists x), .processor b.fresh n x awaited] := by
  simp [duties, started, track, take, launch, Launch.isDuty]

theorem duties_of_ledger (h : b'.ledger = b.ledger) : b'.duties = b.duties :=
  congrArg Ledger.duties h

theorem duties_finish (hx : x < b.exchanges.size) (run : Nat) (awaited : Bool) (o : Outcome) :
    (b.finish x run awaited o).duties = b.duties := by
  unfold finish
  split
  · rfl
  · split
    · rfl
    · exact duties_of_ledger (ledger_settle hx run _)

namespace Adds

theorem from_evolves (h : Adds b' x b'' new) (he : Evolves b b') (hd : b'.duties = b.duties) :
    Adds b x b'' new where
  toEvolves := he.trans h.toEvolves
  duties := hd ▸ h.duties
  jobs := h.jobs

/-- A turn that leaves no work. -/
theorem of_evolves (he : Evolves b b') (hd : b'.duties = b.duties)
    (hj : ∀ j ∈ new, ∀ y, ¬ j.Serves y) : Adds b x b' new where
  toEvolves := he
  duties _ hl := .inl (hd ▸ hl)
  jobs j hm y hs := absurd hs (hj j hm y)

theorem of_stirs (h : Stirs b b') : Adds b x b' [] :=
  of_evolves h.toEvolves (duties_of_ledger h.ledger_eq) fun _ hj => absurd hj List.not_mem_nil

/-- A turn about `x`, which has been dispatched. -/
theorem of_dispatched (h : b.Dispatched x) (he : Evolves b b')
    (hl : ∀ l ∈ b'.duties, l ∈ b.duties ∨ l.Serves x)
    (hj : ∀ j ∈ new, ∀ y, j.Serves y → y = x) : Adds b x b' new where
  toEvolves := he
  duties l hm := (hl l hm).imp_right fun hs => ⟨hs, h.evolves he⟩
  jobs j hm y hs := ⟨hj j hm y hs, h.evolves he⟩

/-- What is left of a send that has put `x` into a queue is about `x`. -/
theorem of_queues {r : Turn Sending SendResult} (h : b.Dispatched x) (he : Evolves b b')
    (hl : ∀ l ∈ b'.duties, l ∈ b.duties ∨ l.Serves x) (hr : ∀ c, r = .waiting c → c.Queues x) :
    Adds b x b' (r.jobs .sending) :=
  of_dispatched h he hl fun j hj y hs => by
    obtain ⟨c, hc, rfl⟩ := Turn.mem_jobs.1 hj
    exact (hr c hc).concerns.eq hs

theorem awaitProcessor (h : b.Dispatched x) (run deadline : Nat) :
    Adds b x (b.awaitProcessor x run deadline).1
      ((b.awaitProcessor x run deadline).2.jobs .sending) := by
  obtain ⟨b', r, e, -, ht | ht⟩ | ⟨seen, -, e⟩ :=
    awaitProcessor_cases h.lt_size h.sent run deadline <;> rw [e]
  · exact of_stirs ht
  · exact of_evolves ht.toEvolves (duties_of_ledger ht.ledger_eq) (by simp [Turn.jobs])
  · refine of_dispatched h (.refl b) (fun l hl => .inl hl) fun j hj y hs => ?_
    obtain rfl := List.mem_singleton.1 hj
    exact hs.symm

theorem deliver (h : b.Dispatched x) (t : Endpoint) (d : Delivery) :
    Adds b x (b.deliver x t d).1 ((b.deliver x t d).2.jobs .sending) := by
  have hstart (n : Nat) (awaited : Bool) (l : Launch) (hl : l ∈ (b.started x n awaited).duties) :
      l ∈ b.duties ∨ l.Serves x := by
    rw [duties_started, List.mem_append, List.mem_cons, List.mem_singleton] at hl
    rcases hl with hl | rfl | rfl
    · exact .inl hl
    · exact .inr rfl
    · exact .inr rfl
  have hsame (n : Nat) (awaited : Bool) : Evolves b (b.started x n awaited) := .of_eq rfl
  obtain ⟨n, e⟩ | ⟨n, deadline, e⟩ | ⟨hs, hq⟩ := deliver_cases b x t d
  · rw [e]
    exact of_dispatched h (hsame n false) (hstart n false) (by simp [Turn.jobs])
  · rw [e]
    have ha := awaitProcessor (h.evolves (hsame n true)) b.fresh deadline
    refine of_dispatched h ((hsame n true).trans ha.toEvolves) (fun l hl => ?_) fun j hj y hs =>
      (ha.jobs j hj y hs).1
    exact (ha.duties l hl).elim (hstart n true l) fun hs => .inr hs.1
  · refine of_queues h (Evolves.deliver b x t d) (fun l hl => ?_) hq
    rw [duties_of_ledger hs.ledger_eq, duties_track, List.mem_append, List.mem_singleton] at hl
    rcases hl with hl | rfl
    · exact .inl hl
    · exact .inr rfl

theorem persisted (h : b.Dispatched x) (t : Endpoint) (d : Delivery)
    (r : Turn Access StoreAnswer) :
    Adds b x (b.persisted x t d r).1 ((b.persisted x t d r).2.jobs .sending) := by
  cases r with
  | waiting a =>
    refine of_dispatched h (.refl b) (fun l hl => .inl hl) fun j hj y hs => ?_
    obtain rfl := List.mem_singleton.1 hj
    exact hs.symm
  | ended r =>
    cases r with
    | ok _ => exact deliver h t d
    | error e => exact of_stirs (.failQuietly b x _)

theorem dispatch (hx : x < b.exchanges.size) (t : Endpoint) (d : Delivery) :
    Adds b x (b.dispatch x t d).1 ((b.dispatch x t d).2.jobs .sending) := by
  obtain ⟨r, h⟩ | ⟨b', moved, h⟩ := dispatch_cases hx t d <;> rw [h]
  · exact of_stirs (.refl b)
  have hx' : b'.Dispatched x := ⟨Nat.lt_of_lt_of_le hx moved.size_le, moved.sent⟩
  have hd := duties_of_ledger moved.ledger_eq
  split
  · have hc := Calls.persist b' x
    exact (persisted (hx'.evolves hc.evolves) t d _).from_evolves
      (moved.toEvolves.trans hc.evolves) (hc.duties_eq.trans hd)
  · exact (deliver hx' t d).from_evolves moved.toEvolves hd

theorem not_serves_replied (b : Bus) (x : Nat) (r : Turn Access StoreAnswer) :
    ∀ j ∈ (b.replied x r).jobs .sending, ∀ y, ¬ j.Serves y := by
  intro j hj y
  cases r with
  | waiting a =>
    obtain rfl := List.mem_singleton.1 hj
    exact id
  | ended r => cases r <;> cases hj

theorem respond (hx : x < b.exchanges.size) :
    Adds b x (b.respond x).1 ((b.respond x).2.jobs .sending) := by
  obtain ⟨r, h⟩ | ⟨b', moved, h⟩ := respond_cases hx <;> rw [h]
  · exact of_stirs (.refl b)
  have hd := duties_of_ledger moved.ledger_eq
  split
  · have hc := Calls.persist b' x
    exact of_evolves (moved.toEvolves.trans hc.evolves) (hc.duties_eq.trans hd)
      (not_serves_replied _ x _)
  · exact of_evolves moved.toEvolves hd (by simp [Turn.jobs])

theorem send (hx : x < b.exchanges.size) :
    Adds b x (b.send x).1 ((b.send x).2.jobs .sending) := by
  obtain ⟨b', r, hs, -, h⟩ | ⟨-, h⟩ | ⟨selector, t, d, -, h⟩ := send_cases b x <;> rw [h]
  · exact of_stirs hs
  · exact respond hx
  · exact (dispatch (b := { b with selector }) hx t d).from_evolves (.of_eq rfl) rfl

theorem resumeSend {c : Sending} (h : b.Orderly (.sending c :: others)) :
    Adds b c.exchange (b.resumeSend c).1 ((b.resumeSend c).2.jobs .sending) := by
  have hc (hs : c.Concerns c.exchange) : b.Dispatched c.exchange :=
    h c.exchange (.inl ⟨_, List.mem_cons_self, hs⟩)
  cases c with
  | persisting x t d a =>
    have ha := Calls.resumeAccess b a
    exact (persisted ((hc rfl).evolves ha.evolves) t d _).from_evolves ha.evolves ha.duties_eq
  | processing x run deadline seen => exact awaitProcessor (hc rfl) run deadline
  | queueing x k q ticket =>
    have he := Stirs.enqueue b x k q (some ticket)
    exact of_queues (hc rfl) he.toEvolves (fun l hl => .inl (duties_of_ledger he.ledger_eq ▸ hl))
      fun c => queues_enqueue
  | replying x deadline seen =>
    have he := Stirs.awaitReply b x deadline
    exact of_queues (hc rfl) he.toEvolves (fun l hl => .inl (duties_of_ledger he.ledger_eq ▸ hl))
      fun c => queues_awaitReply
  | responding x a =>
    have ha := Calls.resumeAccess b a
    exact of_evolves ha.evolves ha.duties_eq (not_serves_replied _ x _)

/-! ### Trackers -/

theorem removed (h : b.Dispatched x) (r : Turn Access StoreAnswer) :
    Adds b x (b.removed x r).1 ((b.removed x r).2.jobs .tracking) := by
  cases r with
  | waiting a =>
    refine of_dispatched h (.refl b) (fun l hl => .inl hl) fun j hj y hs => ?_
    obtain rfl := List.mem_singleton.1 hj
    exact hs.symm
  | ended r => exact of_evolves (.of_eq rfl) rfl (by simp [Turn.jobs, Bus.removed])

theorem follow (h : b.Dispatched x) (persisted : Bool) :
    Adds b x (b.follow x persisted).1 ((b.follow x persisted).2.jobs .tracking) := by
  unfold Bus.follow
  split
  · split
    · next s _ =>
      have hc := Calls.callStore b s (.remove (b.exchange x).id)
      split
      · exact (removed (h.evolves hc.evolves) _).from_evolves hc.evolves hc.duties_eq
      · exact removed h _
    · exact removed h _
  · refine of_dispatched h (.refl b) (fun l hl => .inl hl) fun j hj y hs => ?_
    obtain rfl := List.mem_singleton.1 hj
    exact hs.symm

theorem resumeTracking {t : Tracking} (h : b.Dispatched t.exchange) :
    Adds b t.exchange (b.resumeTracking t).1 ((b.resumeTracking t).2.jobs .tracking) := by
  cases t with
  | watching x persisted seen => exact follow h persisted
  | removing x a =>
    have ha := Calls.resumeAccess b a
    exact (removed (h.evolves ha.evolves) _).from_evolves ha.evolves ha.duties_eq

end Adds

end Bus

/-! ### Runs -/

namespace Traffic
variable {s s₀ : Traffic} {d : Deed} {b : Bus} {jobs : List Job}
  {P : Traffic → Deed → Traffic → Prop}

theorem Event.orderly (h : s.bus.Orderly s.jobs) (k : s.Event d b jobs) : b.Orderly jobs := by
  have hold (gone : List Job) {others : List Job} (job : s.jobs.Perm (gone ++ others)) :
      s.bus.Orderly (gone ++ others) ∧ s.bus.Orderly others :=
    ⟨h.mono (fun j hj => .inl (job.mem_iff.2 hj)) (fun _ hl => hl) (.refl _),
      h.mono (fun j hj => .inl (job.mem_iff.2 (List.mem_append_right _ hj))) (fun _ hl => hl)
        (.refl _)⟩
  -- launched work that is taken up has been launched for what has been dispatched
  have taken {l : Launch} {before others : List Launch}
      (launched : s.bus.launched = before ++ l :: others) :
      (s.bus.leaving (before ++ others)).Orderly s.jobs ∧ (l.isDuty = true → ∀ x, l.Serves x →
        (s.bus.leaving (before ++ others)).Dispatched x) := by
    refine ⟨h.mono (fun _ hj => .inl hj) (fun k => Bus.mem_duties_of_leaving launched) (.of_eq rfl),
      fun hl x hx => ?_⟩
    exact (h x (.inr ⟨l, Bus.mem_duties_of_launched launched hl, hx⟩)).evolves (.of_eq rfl)
  cases k with
  | plain _ _ _ stirs jobs come_plain =>
    refine (hold _ jobs).2.mono (fun j hj => ?_)
      (Bus.duties_of_ledger stirs.ledger_eq ▸ fun _ hl => hl) stirs.toEvolves
    rcases List.mem_append.1 hj with hj | hj
    · exact .inr (Job.not_serves_of_plain (come_plain j hj))
    · exact .inl hj
  | send hx => exact h.add (.send hx)
  | respond hx => exact h.add (.respond hx)
  | resumeSend job =>
    obtain ⟨hc, ho⟩ := hold [_] job
    exact ho.add (.resumeSend hc)
  | retrieve id =>
    have hc := Bus.Calls.retrieve s.bus id
    refine h.add (x := 0) (.of_evolves hc.evolves hc.duties_eq fun j hj y hs => ?_)
    obtain ⟨c, -, rfl⟩ := Turn.mem_jobs.1 hj
    exact hs
  | @resumeRetrieve a others job =>
    have hc := Bus.Calls.resumeAccess s.bus a
    refine (hold [_] job).2.add (x := 0)
      (.of_evolves hc.evolves hc.duties_eq fun j hj y hs => ?_)
    obtain ⟨c, -, rfl⟩ := Turn.mem_jobs.1 hj
    exact hs
  | track launched =>
    obtain ⟨ho, hd⟩ := taken launched
    exact ho.add (.follow (hd rfl _ rfl) _)
  | resumeTracking job =>
    obtain ⟨hc, ho⟩ := hold [_] job
    exact ho.add (.resumeTracking (hc _ (.inl ⟨_, List.mem_cons_self, rfl⟩)))
  | process launched =>
    obtain ⟨ho, hd⟩ := taken launched
    intro y hy
    rcases hy with ⟨j, hj, hs⟩ | hl
    · rcases List.mem_cons.1 hj with rfl | hj
      · exact hd rfl y hs
      · exact ho y (.inl ⟨j, hj, hs⟩)
    · exact ho y (.inr hl)
  | finish o job =>
    obtain ⟨hc, ho⟩ := hold [_] job
    have hd := hc _ (.inl ⟨_, List.mem_cons_self, rfl⟩)
    exact ho.mono (fun _ hj => .inl hj) (Bus.duties_finish hd.lt_size _ _ o ▸ fun _ hl => hl)
      (.finish _ _ _ _ _)
  | serve => exact h.mono (fun _ hj => .inl hj) (fun _ hl => hl) (.of_eq rfl)

theorem Fresh.orderly (h : s.Fresh) : s.bus.Orderly s.jobs := by
  intro x hx
  simp [h.no_jobs, Bus.duties, h.no_launches] at hx

theorem Runs.orderly (fresh : s₀.Fresh) (h : Runs P s₀ s) : s.bus.Orderly s.jobs := by
  induction h with
  | refl => exact fresh.orderly
  | step _ step _ ih => exact step.event.orderly ih

end Traffic
end ServiceBus
