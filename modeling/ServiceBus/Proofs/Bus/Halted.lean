import ServiceBus.Proofs.Bus.Connections
import ServiceBus.Proofs.Bus.Flights
import ServiceBus.Proofs.Bus.WriteAhead
import ServiceBus.Proofs.Registry.Cleared

/-!
# What a shutdown leaves behind

A shutdown refuses new sends, waits for what is in flight, fails the rest of it, and then disconnects
every component and clears the registry. What has been sent and has not ended is in flight, or is
still being written down (`Persisting`), and of the latter the shutdown knows nothing. If there is
none by the time it has done waiting, everything that has been sent ends with it (`Retired`), and
after it has returned nothing is sent, delivered or connected any more (`at_rest_of_returns`). If
there is one, it is delivered after the shutdown has returned (`not_at_rest_of_persisting`).
-/

namespace ServiceBus

/-- Whether the deed connects a component, or publishes, pins or links something. -/
def Deed.opens : Deed → Bool
  | .ask (.connect ..) | .ask (.connectQueue _) => true
  | .ask (.registry c) => c.opens
  | _ => false

/-- Whether the deed is the turn of a shutdown that waits for what is in flight. -/
def Deed.drains : Deed → Bool
  | .ask (.shutdown _) | .resume (.shuttingDown (.draining _)) => true
  | _ => false

/-! ### Sends on a closing bus -/

namespace Bus
variable {b : Bus} {x : Nat}

theorem send_of_closing (closing : b.closing = true) (x : Nat) :
    (∃ r, b.send x = (b, .ended r)) ∨ b.send x = b.respond x := by
  unfold send
  dsimp only
  split
  · exact .inl ⟨_, rfl⟩
  · split
    · exact .inr rfl
    · exact .inl ⟨_, rfl⟩

theorem hops_respond (hx : x < b.exchanges.size) (unsent : (b.exchange x).hops = 0) :
    ((b.respond x).1.exchange x).hops = 0 := by
  obtain ⟨r, h⟩ | ⟨b', moved, h⟩ := respond_cases hx <;> rw [h]
  · exact unsent
  · have same := (Spares.of_handBack moved).hops_cases x hx
    split
    · rw [(Calls.persist b' x).exchange_eq x]
      omega
    · show (b'.exchange x).hops = 0
      omega

theorem hops_send_of_closing (closing : b.closing = true) (hx : x < b.exchanges.size)
    (unsent : (b.exchange x).hops = 0) : ((b.send x).1.exchange x).hops = 0 := by
  obtain ⟨r, h⟩ | h := send_of_closing closing x <;> rw [h]
  · exact unsent
  · exact hops_respond hx unsent

end Bus

namespace Traffic
variable {s s' s₀ : Traffic} {d : Deed} {b : Bus} {l later earlier : List Transition}
  {t : Transition} {others : List Job} {x : Nat}
open Bus Transition

/-- The send of `x` waits for `x` to be written down. -/
def Persisting (s : Traffic) (x : Nat) : Prop :=
  ∃ target dl a, .sending (.persisting x target dl a) ∈ s.jobs

/-- A send that begins to write its exchange down finds the bus open. -/
theorem Submits.open_or_persisting {target : Endpoint} {dl : Delivery} {r : Turn Access StoreAnswer}
    (h : s.Submits x target dl d b r others) : s.bus.closing = false ∨ s.Persisting x := by
  -- on a bus that is closing the send would not have taken the hop
  have opened {b₁ : Bus} (moved : Moved s.bus x (.dispatch target) b₁)
      (later : Evolves b₁ (s.bus.send x).1) : s.bus.closing = false := by
    rw [← Bool.not_eq_true]
    intro closing
    obtain ⟨before, after⟩ := moved.takes_hop
    have unsent := hops_send_of_closing closing moved.lt_size before
    have hops := later.hops_le x
    omega
  cases h with
  | spared moved _ turn =>
    refine .inl (opened moved ?_)
    rw [turn]
    exact .persisted _ _ _ _ _
  | begun moved _ call turn =>
    refine .inl (opened moved ((Calls.of_turn call (.persist _ x)).evolves.trans ?_))
    rw [turn]
    exact .persisted _ _ _ _ _
  | @resumed a _ _ _ job =>
    exact .inr ⟨target, dl, a, job.mem_iff.2 List.mem_cons_self⟩

/-- Only on an open bus does a send take on a delivery. -/
theorem Step.submits_of_sends (h : s.Step d s') (sends : Sends ⟨s, d, s'⟩ x) :
    s.bus.closing = false ∧ ∃ target dl b r, b.Dispatched x ∧
      s.Submits x target dl d b r s.jobs ∧ s'.bus = (b.persisted x target dl r).1 ∧
      s'.jobs = (b.persisted x target dl r).2.jobs .sending ++ s.jobs := by
  obtain rfl : d = .ask (.send x) := sends.deed
  have unsent : (s.bus.exchange x).hops = 0 := sends.unsent
  have sent : (s'.bus.exchange x).hops ≠ 0 := sends.sent
  cases h with
  | ask proper =>
    have sent : ((s.bus.send x).1.exchange x).hops ≠ 0 := sent
    constructor
    · rw [← Bool.not_eq_true]
      intro closing
      exact sent (hops_send_of_closing closing proper unsent)
    rcases send_turn proper with ⟨b, r, stirs, -, turn⟩ | turn |
      ⟨target, dl, b, r, dispatched, submits, turn⟩
    · rw [turn] at sent
      exact absurd ((stirs.hops_eq x proper).trans unsent) sent
    · rw [turn] at sent
      exact absurd (hops_respond proper unsent) sent
    · refine ⟨target, dl, b, r, dispatched, submits, congrArg Prod.fst turn, ?_⟩
      show (s.bus.send x).2.jobs .sending ++ s.jobs = _
      rw [turn]

/-- What comes of writing an exchange down: it is still being written, its delivery begins, or it
has ended. -/
theorem Submits.begins {target : Endpoint} {dl : Delivery} {r : Turn Access StoreAnswer}
    (submits : s.Submits x target dl d b r others) (dispatched : b.Dispatched x)
    (bus : s'.bus = (b.persisted x target dl r).1)
    (jobs : s'.jobs = (b.persisted x target dl r).2.jobs .sending ++ others)
    (active : (s'.bus.exchange x).status = .active) :
    Begins ⟨s, d, s'⟩ x ∨ s'.Persisting x := by
  match r with
  | .waiting a => exact .inr ⟨target, dl, a, jobs ▸ List.mem_cons_self⟩
  | .ended (.ok v) =>
    have lands : Lands (b.track x) x s'.bus ((b.deliver x target dl).2.jobs .sending) :=
      bus ▸ .deliver dispatched target dl
    exact .inl (begins_of_lands submits lands jobs active)
  | .ended (.error e) =>
    rw [bus] at active
    exact absurd active (terminal_failQuietly dispatched.lt_size _)

/-- No send is given up while its exchange is being written down. -/
def Keeps (_ : Traffic) (d : Deed) (_ : Traffic) : Prop :=
  ∀ x target dl a, d ≠ .abandon (.sending (.persisting x target dl a))

theorem Step.underway (h : s.Step d s') (ordered : s.bus.Orderly s.jobs) (keeps : Keeps s d s')
    (before : Sent l x → (s.bus.exchange x).status = .active → Begun l x ∨ s.Persisting x)
    (sent : Sent (⟨s, d, s'⟩ :: l) x) (active : (s'.bus.exchange x).status = .active) :
    Begun (⟨s, d, s'⟩ :: l) x ∨ s'.Persisting x := by
  have now (outcome : Begins ⟨s, d, s'⟩ x ∨ s'.Persisting x) :
      Begun (⟨s, d, s'⟩ :: l) x ∨ s'.Persisting x :=
    outcome.imp_left fun begins => ⟨_, List.mem_cons_self, begins⟩
  obtain ⟨t, ht, sends⟩ := sent
  rcases List.mem_cons.1 ht with rfl | ht
  · obtain ⟨-, target, dl, b, r, dispatched, submits, bus, jobs⟩ := h.submits_of_sends sends
    exact now (submits.begins dispatched bus jobs active)
  obtain begun | ⟨target, dl, a, hj⟩ := before ⟨t, ht, sends⟩ (h.evolves.active_before active)
  · exact .inl begun.later
  obtain hj' | rfl | rfl | ⟨_, _, _, _, e⟩ := h.kept hj
  · exact .inr ⟨target, dl, a, hj'⟩
  · have dispatched : (s.bus.resumeAccess a).1.Dispatched x :=
      (ordered x (.inl ⟨_, hj, rfl⟩)).evolves (Calls.resumeAccess s.bus a).evolves
    cases h with
    | resume job =>
      have submits : s.Submits x target dl _ _ _ _ := .resumed job rfl
      exact now (submits.begins dispatched rfl rfl active)
  · exact absurd rfl (keeps x target dl a)
  · cases e

theorem Step.persisting_cases (h : s.Step d s') (ordered : s.bus.Orderly s.jobs)
    (persisting : s'.Persisting x) : s.Persisting x ∨ s.bus.closing = false := by
  obtain ⟨target, dl, a, hj⟩ := persisting
  rcases (h.leg ordered x).persisting hj with hj | ⟨others, submits⟩
  · exact .inl ⟨target, dl, a, hj⟩
  · exact submits.open_or_persisting.symm

theorem Step.closing_le (h : s.Step d s') (closing : s.bus.closing = true) :
    s'.bus.closing = true := by
  have outlined := h.outlined
  show s'.bus.outline.closing = true
  generalize s'.bus.outline = o at outlined
  cases outlined with
  | closes | stops | halts => rfl
  | same | selects | connects | disconnects | registers | passes => exact closing

/-! ### When everything has ended -/

/-- Whatever has been sent has ended, and nothing more is going to be sent. -/
structure Retired (l : List Transition) (s : Traffic) : Prop where
  closing : s.bus.closing = true
  written : ∀ x, ¬ s.Persisting x
  ended : ∀ x, Sent l x → (s.bus.exchange x).status ≠ .active

theorem Retired.step (h : Retired l s) (ordered : s.bus.Orderly s.jobs) (step : s.Step d s') :
    Retired (⟨s, d, s'⟩ :: l) s' := by
  refine ⟨step.closing_le h.closing, ?_, ?_⟩
  · intro x persisting
    rcases step.persisting_cases ordered persisting with before | opened
    · exact h.written x before
    · cases h.closing.symm.trans opened
  · rintro x ⟨t, ht, sends⟩
    rcases List.mem_cons.1 ht with rfl | ht
    · cases h.closing.symm.trans (step.submits_of_sends sends).1
    · exact mt step.evolves.active_before (h.ended x ⟨t, ht, sends⟩)

/-- Whatever is sent has been taken on before the bus was closing, so no processor is launched any
more. -/
theorem Step.runs_le (h : s.Step d s') (ordered : s.bus.Orderly s.jobs) (retired : Retired l s)
    (x : Nat) :
    s'.bus.launched.countP (·.runs x) ≤ s.bus.launched.countP (·.runs x) := by
  have leg := h.leg ordered x
  cases leg with
  | unmoved h => exact Nat.le_of_eq h.runs_eq
  | waits submits => exact Nat.le_of_eq (submits.rests.runs_eq x)
  | refused submits rests => exact Nat.le_of_eq ((submits.rests.trans rests).runs_eq x)
  | lands submits =>
    obtain opened | persisting := submits.open_or_persisting
    · cases retired.closing.symm.trans opened
    · exact absurd persisting (retired.written x)
  | @queues c q ticket _ _ deed =>
    obtain rfl : d = _ := deed
    cases h with
    | resume job =>
      have duties := duties_of_ledger (Stirs.enqueue s.bus x c q (some ticket)).ledger_eq
      rw [countP_runs, countP_runs]
      exact Nat.le_of_eq (congrArg (List.countP _) duties)
  | @begins _ _ _ before after _ launched bus =>
    have bus : s'.bus = _ := bus
    have launched : s.bus.launched = _ := launched
    have sub : (before ++ after).Sublist s.bus.launched :=
      launched ▸ (List.sublist_cons_self _ _).append_left before
    exact bus ▸ sub.countP_le

/-! ### Turns of a shutdown -/

/-- A shutdown that has come to `u` has its turn, and finds `b`. -/
inductive Shutdown (s : Traffic) : Deed → Bus → ShuttingDown → Prop
  | begins (limit : Nat) : Shutdown s (.ask (.shutdown limit)) s.bus.beginShutdown
    (.draining ⟨s.bus.now + limit⟩)
  | resumes (u : ShuttingDown) : Shutdown s (.resume (.shuttingDown u)) s.bus u

def ShutdownBegun (s : Traffic) : Prop := ∃ limit, .ask (.shutdown limit) ∈ s.log

variable {u : ShuttingDown}

theorem Step.mem_of_resume {j : Job} (h : s.Step (.resume j) s') : j ∈ s.jobs := by
  cases h with
  | resume job => exact job.mem_iff.2 List.mem_cons_self

theorem Step.shutdown (h : s.Step d s') (turn : s.Shutdown d b u) :
    s'.bus = (b.resumeShutdown u).1 ∧ ∃ others, (∀ j ∈ others, j ∈ s.jobs) ∧
      s'.jobs = (b.resumeShutdown u).2.jobs .shuttingDown ++ others := by
  cases turn with
  | begins limit =>
    cases h with
    | ask => exact ⟨rfl, s.jobs, fun _ hj => hj, rfl⟩
  | resumes u =>
    cases h with
    | @resume _ others job =>
      exact ⟨rfl, others, fun j hj => job.mem_iff.2 (.tail _ hj), rfl⟩

theorem Step.shutting_cases (h : s.Step d s') (hu : .shuttingDown u ∈ s'.jobs) :
    .shuttingDown u ∈ s.jobs ∨ ∃ b v, s.Shutdown d b v ∧ (b.resumeShutdown v).2 = .waiting u := by
  obtain hu | ⟨r, rfl, -, hu⟩ | ⟨l, b, rfl, hu⟩ | ⟨k, rfl, -, hu⟩ := h.mem_jobs hu
  · exact .inl hu
  · cases r with
    | shutdown limit =>
      obtain ⟨v, turn, e⟩ := Turn.mem_jobs.1 hu
      cases e
      exact .inr ⟨_, _, .begins limit, turn⟩
    | send | respond | watch | accept | retrieve | drain =>
      obtain ⟨v, -, e⟩ := Turn.mem_jobs.1 hu
      cases e
    | _ => cases hu
  · cases l with
    | tracker | closer =>
      obtain ⟨v, -, e⟩ := Turn.mem_jobs.1 hu
      cases e
    | processor => cases List.mem_singleton.1 hu
  · cases k with
    | shuttingDown v =>
      obtain ⟨w, turn, e⟩ := Turn.mem_jobs.1 hu
      cases e
      exact .inr ⟨_, _, .resumes v, turn⟩
    | processing => cases List.mem_singleton.1 hu
    | _ =>
      obtain ⟨v, -, e⟩ := Turn.mem_jobs.1 hu
      cases e

end Traffic

namespace Bus
variable {b : Bus} {x : Nat}

theorem ended_failInFlight (flying : b.Flying x) (there : x < b.exchanges.size) (cause : String) :
    ((b.failInFlight cause).1.exchange x).status ≠ .active := by
  rw [failInFlight, failAll_fst]
  exact Rewires.ended_failEach cause _ b ((Table.mem_values_iff _).2 flying) there

/-- When a shutdown has done waiting for what is in flight, nothing is, or it has been failed. -/
theorem ended_resumeShutdown {e : Draining}
    (through : (b.resumeShutdown (.draining e)).2 ≠ .waiting (.draining e)) (flying : b.Flying x)
    (there : x < b.exchanges.size) :
    ((b.resumeShutdown (.draining e)).1.exchange x).status ≠ .active := by
  have turn := shuts b (.draining e)
  have failed := ended_failInFlight flying there shutdownCause
  generalize b.resumeShutdown (.draining e) = r at turn through
  cases turn with
  | waits => exact absurd rfl through
  | drained idle =>
    obtain ⟨k, hk⟩ := flying
    have none : b.inFlight.values = [] := by
      simpa [Table.isEmpty, Table.values] using idle
    have there := b.inFlight.mem_values_iff.2 ⟨k, hk⟩
    rw [none] at there
    cases there
  | fails => exact failed
  | failed => exact mt (Rewires.halt _).active_before failed

theorem closing_resumeShutdown (closing : b.closing = true) (u : ShuttingDown) :
    (b.resumeShutdown u).1.closing = true := by
  show (b.resumeShutdown u).1.outline.closing = true
  obtain ⟨same, -⟩ | ⟨cs, -, outline⟩ := outline_resumeShutdown b u
  · rw [same]
    exact closing
  · rw [outline]

end Bus

/-- A shutdown returns. -/
def Transition.Returns (t : Transition) : Prop :=
  ∃ b u, t.before.Shutdown t.deed b u ∧ (b.resumeShutdown u).2 = .ended ()

namespace Traffic
variable {s s' s₀ : Traffic} {d : Deed} {b : Bus} {l : List Transition} {x : Nat} {u : ShuttingDown}
open Bus Transition

/-! ### Runs with a shutdown -/

/-- Nothing is connected or registered once a shutdown has begun, and no send is given up while its
exchange is being written down. -/
structure Withdraws (s : Traffic) (d : Deed) (s' : Traffic) : Prop where
  opens : s.ShutdownBegun → d.opens = false
  keeps : Keeps s d s'

/-- Besides, when a shutdown has done waiting for what is in flight, nothing that has been sent is
still being written down. -/
structure Retires (s : Traffic) (d : Deed) (s' : Traffic) : Prop extends Withdraws s d s' where
  written : ∀ b e, s.Shutdown d b (.draining e) →
    (b.resumeShutdown (.draining e)).2 ≠ .waiting (.draining e) → ∀ x, ¬ s.Persisting x

theorem Withdraws.retires (h : Withdraws s d s') (other : d.drains = false) : Retires s d s' where
  toWithdraws := h
  written b e turn := by cases turn <;> cases other

/-- How far shutdowns have come. -/
structure Retiring (l : List Transition) (s : Traffic) : Prop where
  underway : ∀ x, Sent l x → (s.bus.exchange x).status = .active → Begun l x ∨ s.Persisting x
  begun : ∀ u, .shuttingDown u ∈ s.jobs → s.bus.closing = true ∧ s.ShutdownBegun
  retired : ∀ e, .shuttingDown (.settling e) ∈ s.jobs → Retired l s

theorem ShutdownBegun.step (h : s.ShutdownBegun) (step : s.Step d s') : s'.ShutdownBegun := by
  obtain ⟨limit, hd⟩ := h
  exact ⟨limit, step.log_eq ▸ .tail _ hd⟩

namespace Retiring

theorem begun_of_turn (h : Retiring l s) (step : s.Step d s') (turn : s.Shutdown d b u) :
    b.closing = true ∧ s'.ShutdownBegun := by
  cases turn with
  | begins limit => exact ⟨rfl, limit, step.log_eq ▸ List.mem_cons_self⟩
  | resumes u => exact (h.begun u step.mem_of_resume).imp_right (·.step step)

/-- At the turn at which a shutdown has done waiting for what is in flight, and at later ones,
everything that has been sent has ended. -/
theorem retires (h : Retiring l s) (ordered : s.bus.Orderly s.jobs) (step : s.Step d s')
    (retires : Retires s d s') (tallied : ∀ x, Tallied l s x)
    (there : ∀ x, Sent l x → x < s.bus.exchanges.size) (turn : s.Shutdown d b u)
    (through : ∀ e, (b.resumeShutdown u).2 ≠ .waiting (.draining e)) :
    Retired (⟨s, d, s'⟩ :: l) s' := by
  cases u with
  | settling e =>
    cases turn
    exact (h.retired e step.mem_of_resume).step ordered step
  | draining e =>
    obtain ⟨bus, others, old, jobs⟩ := step.shutdown turn
    have written := retires.written b e turn (through e)
    refine ⟨bus ▸ closing_resumeShutdown (h.begun_of_turn step turn).1 _, ?_, ?_⟩
    · rintro x ⟨target, dl, a, hj⟩
      rw [jobs] at hj
      rcases List.mem_append.1 hj with hj | hj
      · obtain ⟨v, -, e⟩ := Turn.mem_jobs.1 hj
        cases e
      · exact written x ⟨target, dl, a, old _ hj⟩
    · rintro x ⟨t, ht, sends⟩ active
      rcases List.mem_cons.1 ht with rfl | ht
      · obtain rfl : d = .ask (.send x) := sends.deed
        cases turn
      · have before := step.evolves.active_before active
        have begun := (h.underway x ⟨t, ht, sends⟩ before).resolve_right (written x)
        have flying := ((tallied x).flying before).2 begun
        have size := there x ⟨t, ht, sends⟩
        rw [bus] at active
        cases turn <;> exact ended_resumeShutdown (through _) flying size active

theorem step (h : Retiring l s) (ordered : s.bus.Orderly s.jobs) (step : s.Step d s')
    (retires : Retires s d s') (tallied : ∀ x, Tallied l s x)
    (there : ∀ x, Sent l x → x < s.bus.exchanges.size) : Retiring (⟨s, d, s'⟩ :: l) s' where
  underway x := step.underway ordered retires.keeps (h.underway x)
  begun u hu := by
    obtain hu | ⟨b, v, turn, -⟩ := step.shutting_cases hu
    · exact (h.begun u hu).imp step.closing_le (·.step step)
    · obtain ⟨closing, shutting⟩ := h.begun_of_turn step turn
      exact ⟨(step.shutdown turn).1 ▸ closing_resumeShutdown closing v, shutting⟩
  retired e he := by
    obtain he | ⟨b, v, turn, waits⟩ := step.shutting_cases he
    · exact (h.retired e he).step ordered step
    · refine h.retires ordered step retires tallied there turn fun e' drains => ?_
      cases waits.symm.trans drains

end Retiring

theorem Trace.retiring (fresh : s₀.Fresh) (trace : Trace Retires s₀ l s) (apart : Apart l s.bus) :
    Retiring l s := by
  induction trace with
  | start =>
    refine ⟨?_, by simp [fresh.no_jobs], by simp [fresh.no_jobs]⟩
    rintro x ⟨t, ht, -⟩
    cases ht
  | step trace step retires ih =>
    have before := apart.earlier trace.course (fun _ ht => .tail _ ht) step.evolves
    exact (ih before).step (trace.course.orderly fresh.orderly) step retires
      (tallied fresh trace.course before) fun x sent => sent.lt_size trace.course

/-! ### When the shutdown has returned -/

end Traffic

structure Outline.Halted (o : Outline) : Prop where
  stopped : o.stopped = true
  disconnected : ∀ c, o.components.get? c = none
  bare : o.registry.Bare

namespace Traffic
variable {s s' s₀ : Traffic} {d : Deed} {b : Bus} {l : List Transition} {t : Transition} {x : Nat}
  {u : ShuttingDown} {o : Outline}
open Bus Transition

theorem Outlined.halted (h : s.Outlined d o) (before : s.bus.outline.Halted)
    (shut : d.opens = false) : o.Halted := by
  obtain ⟨stopped, disconnected, bare⟩ := before
  cases h with
  | same | selects | passes | closes => exact ⟨stopped, disconnected, bare⟩
  | connects deed => obtain rfl | ⟨rfl, -⟩ := deed <;> cases shut
  | disconnects get =>
    refine ⟨stopped, fun k => ?_, bare⟩
    rw [get]
    split
    · rfl
    · exact disconnected k
  | registers => exact ⟨stopped, disconnected, bare.after shut⟩
  | stops get => exact ⟨rfl, get, bare⟩
  | halts get => exact ⟨rfl, get, bare.after (c := .clear) rfl⟩

theorem Outlined.filed (h : s.Outlined d o) (before : s.bus.registry.Filed) : o.registry.Filed := by
  cases h with
  | registers c => exact before.after c
  | halts => exact before.after .clear
  | same | selects | connects | disconnects | passes | closes | stops => exact before

theorem Trace.filed {P : Traffic → Deed → Traffic → Prop} (trace : Trace P s₀ l s)
    (start : s₀.bus.registry.Filed) : s.bus.registry.Filed := by
  induction trace with
  | start => exact start
  | step _ step _ ih => exact step.outlined.filed ih

theorem Step.halted (h : s.Step d s') (turn : s.Shutdown d b u)
    (returns : (b.resumeShutdown u).2 = .ended ()) (filed : s.bus.registry.Filed) :
    s'.bus.outline.Halted := by
  obtain ⟨-, waits⟩ | ⟨cs, get, outline⟩ := outline_resumeShutdown b u
  · exact absurd returns waits
  · have registry : b.registry = s.bus.registry := by cases turn <;> rfl
    rw [(h.shutdown turn).1, outline, registry]
    exact ⟨rfl, get, filed.bare_clear⟩

theorem Step.not_puts (h : s.Step d s') (stopped : s.bus.stopped = true) (x q : Nat) :
    ¬ Puts ⟨s, d, s'⟩ x q := by
  by_cases loud : d.isPlain = false
  · obtain same | ⟨-, going, -⟩ := (h.feeds loud).items q
    · intro puts
      have puts : (s'.bus.queue q).items = (s.bus.queue q).items ++ [x] := puts
      rw [show (s'.bus.queue q).items = (s.bus.queue q).items from same] at puts
      simp at puts
    · cases stopped.symm.trans going
  · exact (h.takes (eq_true_of_ne_false loud)).not_puts x q

theorem Step.runs_pos (h : s.Step d s') (begins : d.begins x = true) :
    0 < s.bus.launched.countP (·.runs x) := by
  cases h with
  | take launched =>
    exact List.countP_pos_iff.2 ⟨_, launched ▸ List.mem_append_right _ List.mem_cons_self, begins⟩
  | _ => cases begins

/-- From `s` to `s'` nothing is undone of a shutdown that had returned by then. -/
structure Lasts (l later : List Transition) (s s' : Traffic) : Prop where
  begun : s'.ShutdownBegun
  halted : s'.bus.outline.Halted
  retired : Retired (later ++ l) s'
  runs_le : ∀ x, s'.bus.launched.countP (·.runs x) ≤ s.bus.launched.countP (·.runs x)
  not_puts : ∀ u ∈ later, ∀ x q, ¬ u.Puts x q
  begins : ∀ u ∈ later, ∀ x, u.deed.begins x = true → 0 < s.bus.launched.countP (·.runs x)

theorem Trace.lasts {later : List Transition} (trace : Trace Retires s later s')
    (ordered : s.bus.Orderly s.jobs) (begun : s.ShutdownBegun) (halted : s.bus.outline.Halted)
    (retired : Retired l s) : Lasts l later s s' := by
  induction trace with
  | start => exact ⟨begun, halted, retired, fun _ => Nat.le_refl _, by simp, by simp⟩
  | step trace step retires ih =>
    have ordered := trace.course.orderly ordered
    exact {
      begun := ih.begun.step step
      halted := step.outlined.halted ih.halted (retires.opens ih.begun)
      retired := ih.retired.step ordered step
      runs_le := fun x => Nat.le_trans (step.runs_le ordered ih.retired x) (ih.runs_le x)
      not_puts := List.forall_mem_cons.2 ⟨step.not_puts ih.halted.stopped, ih.not_puts⟩
      begins := List.forall_mem_cons.2
        ⟨fun x begins => Nat.lt_of_lt_of_le (step.runs_pos begins) (ih.runs_le x), ih.begins⟩ }

/-- What a shutdown leaves behind, when `t` was the turn at which it returned, and `later` has
happened since. -/
structure AtRest (l later : List Transition) (t : Transition) (s : Traffic) : Prop where
  disconnected : ∀ c, s.bus.components.get? c = none
  bare : s.bus.registry.Bare
  /-- When nobody can go on, nobody waits to accept. -/
  accepted : s.Quiet → ∀ a, .accepting a ∉ s.jobs
  /-- Everything that has ever been sent has ended. -/
  ended : ∀ x, Sent l x → (s.bus.exchange x).status ≠ .active
  not_queued : ∀ u ∈ later, ∀ x q, ¬ u.Puts x q
  /-- No processor has begun since but on what it had been launched on before. -/
  not_begun : ∀ u ∈ later, ∀ x, u.deed.begins x = true →
    0 < t.after.bus.launched.countP (·.runs x)

/-- When no processor is launched at the time the shutdown returns, none begins any more. -/
theorem AtRest.never_begins {later : List Transition} (h : AtRest l later t s)
    (idle : ∀ k ∈ t.after.bus.launched, ∀ x, k.runs x = false) :
    ∀ u ∈ later, ∀ x, u.deed.begins x = false := by
  intro u hu x
  refine Bool.eq_false_iff.2 fun begins => ?_
  obtain ⟨k, hk, runs⟩ := List.countP_pos_iff.1 (h.not_begun u hu x begins)
  exact Bool.false_ne_true ((idle k hk x).symm.trans runs)

/-- However sends, processors, acceptors and shutdowns get between each other, after a shutdown has
returned everything is at rest. -/
theorem at_rest_of_returns {later earlier : List Transition} (fresh : s₀.Fresh)
    (filed : s₀.bus.registry.Filed) (trace : Trace Retires s₀ l s) (apart : Apart l s.bus)
    (hl : l = later ++ t :: earlier) (returns : t.Returns) : AtRest l later t s := by
  obtain ⟨trace_t, step, retires, rest⟩ := trace.split hl
  obtain ⟨b, u, turn, ended⟩ := returns
  have ordered := trace_t.course.orderly fresh.orderly
  have course : Course s₀ (t :: earlier) t.after := trace_t.course.step step
  have apart : Apart earlier t.before.bus := by
    refine apart.earlier trace_t.course (fun v hv => ?_) (step.evolves.trans rest.evolves)
    rw [hl]
    exact List.mem_append_right _ (.tail _ hv)
  have retiring := trace_t.retiring fresh apart
  have retired : Retired (t :: earlier) t.after :=
    retiring.retires ordered step retires (tallied fresh trace_t.course apart)
      (fun x sent => sent.lt_size trace_t.course) turn fun e waits => by cases ended.symm.trans waits
  have lasts := rest.lasts (course.orderly fresh.orderly) (retiring.begun_of_turn step turn).2
    (step.halted turn ended (trace_t.filed filed)) retired
  refine ⟨lasts.halted.disconnected, lasts.halted.bare, fun quiet a ha => ?_, ?_, lasts.not_puts,
    lasts.begins⟩
  · have going : s.bus.stopped = false := quiet.waiting _ ha .stopped List.mem_cons_self
    cases lasts.halted.stopped.symm.trans going
  · rw [hl]
    exact lasts.retired.ended

/-- The request is failed while its processor has not begun yet; it begins when the shutdown has
returned. -/
theorem at_rest_of_returns_served : ∃ l later t earlier s, served.Fresh ∧
    served.bus.registry.Filed ∧ Trace Retires served l s ∧ Apart l s.bus ∧
    l = later ++ t :: earlier ∧ t.Returns ∧ Sent l 0 ∧ AtRest l later t s := by
  have fresh : served.Fresh := ⟨rfl, rfl, rfl, rfl⟩
  have filed : served.bus.registry.Filed := Registry.Filed.empty.after (.register stock)
  have idle : Trace Retires served [] served := .start
  have sent := idle.step (.ask (r := .send 0) Nat.one_pos)
    (Withdraws.retires ⟨fun _ => rfl, fun _ _ _ _ => nofun⟩ rfl)
  have tracked := sent.step (@Step.take _ (.tracker 0 false) [] [.processor 1 0 0 true] rfl)
    (Withdraws.retires ⟨fun _ => rfl, fun _ _ _ _ => nofun⟩ rfl)
  have failed := tracked.step (.ask (r := .shutdown 0) trivial)
    ⟨⟨fun _ => rfl, fun _ _ _ _ => nofun⟩, fun _ _ _ _ _ ⟨_, _, _, .tail _ (.tail _ hj)⟩ =>
      nomatch hj⟩
  have struck := failed.step (@Step.resume _
    (.tracking (.watching 0 false ⟨.active, .provider, 1⟩)) _ (.swap _ _ _))
    (Withdraws.retires ⟨fun _ => rfl, fun _ _ _ _ => nofun⟩ rfl)
  have returned := struck.step (@Step.resume _ (.shuttingDown (.settling ⟨500⟩)) _ (.refl _))
    (Withdraws.retires ⟨fun _ => rfl, fun _ _ _ _ => nofun⟩ rfl)
  have begun := returned.step (@Step.take _ (.processor 1 0 0 true) [] [] rfl)
    (Withdraws.retires ⟨fun _ => rfl, fun _ _ _ _ => nofun⟩ rfl)
  have apart := Apart.of_size begun.course (Nat.le_refl 1)
  exact ⟨_, [_], _, _, _, fresh, filed, begun, apart, rfl, ⟨_, _, .resumes _, rfl⟩,
    ⟨_, .tail _ (.tail _ (.tail _ (.tail _ (.tail _ List.mem_cons_self)))), rfl, rfl, by decide⟩,
    at_rest_of_returns fresh filed begun apart rfl ⟨_, _, .resumes _, rfl⟩⟩

theorem Trace.goOn {c : Sending} {others : List Job} (h : Trace Withdraws s₀ l s)
    (asked : s.bus.served < s.bus.asked) (job : s.jobs.Perm (.sending c :: others)) :
    Trace Withdraws s₀ (⟨s.attend, .resume (.sending c), s.attend.after (.resume (.sending c))
      (s.attend.bus.resume (.sending c)) others⟩ :: ⟨s, .serve, s.attend⟩ :: l)
      (s.attend.after (.resume (.sending c)) (s.attend.bus.resume (.sending c)) others) :=
  (h.step (.serve asked) ⟨fun _ => rfl, fun _ _ _ _ => nofun⟩).step (.resume job)
    ⟨fun _ => rfl, fun _ _ _ _ => nofun⟩

/-- The shutdown returns while the request is being written down, and then its processor is run. -/
theorem not_at_rest_of_persisting : ¬ ∀ (s₀ s : Traffic) (l later earlier : List Transition)
    (t : Transition) (x : Nat), s₀.Fresh → s₀.bus.registry.Filed → Trace Withdraws s₀ l s →
    Apart l s.bus → l = later ++ t :: earlier → t.Returns → s.Quiet →
    s.bus.asked ≤ s.bus.served → Sent l x →
    (s.bus.exchange x).status ≠ .active ∨ ∀ u ∈ later, u.deed.begins x = false := by
  intro claimed
  have fresh := fresh_keeping (.inDirectory "/" none)
  have filed : (keeping (.inDirectory "/" none)).bus.registry.Filed :=
    Registry.Filed.empty.after (.register stock)
  have idle : Trace Withdraws (keeping (.inDirectory "/" none)) [] (keeping (.inDirectory "/" none)) :=
    .start
  have created := idle.step (.ask (r := .send 0) Nat.one_pos)
    ⟨fun _ => rfl, fun _ _ _ _ => nofun⟩
  have filled := created.goOn (by decide) (.refl _)
  have synced := filled.goOn (by decide) (.refl _)
  have renamed := synced.goOn (by decide) (.refl _)
  have opened := renamed.goOn (by decide) (.refl _)
  have secured := opened.goOn (by decide) (.refl _)
  -- nothing is in flight, and the shutdown returns at once
  have returned := secured.step (.ask (r := .shutdown 100) trivial)
    ⟨fun _ => rfl, fun _ _ _ _ => nofun⟩
  have delivered := returned.goOn (by decide) (.refl _)
  have tracked := delivered.step (@Step.take _ (.tracker 0 true) [] [.processor 2 0 0 true] rfl)
    ⟨fun _ => rfl, fun _ _ _ _ => nofun⟩
  have begun := tracked.step (@Step.take _ (.processor 2 0 0 true) [] [] rfl)
    ⟨fun _ => rfl, fun _ _ _ _ => nofun⟩
  obtain ended | idle := claimed _ _ _ [_, _, _, _] _ _ 0 fresh filed begun
    (Apart.of_size begun.course (Nat.le_refl 1)) rfl ⟨_, _, .begins 100, rfl⟩ ⟨rfl, by decide⟩
    (by decide) ⟨_, List.mem_of_getLast? rfl, rfl, rfl, by decide⟩
  · exact ended rfl
  · cases idle _ List.mem_cons_self

end Traffic
end ServiceBus
