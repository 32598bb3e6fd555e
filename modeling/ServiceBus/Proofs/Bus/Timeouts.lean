import ServiceBus.Proofs.Bus.Deadlines
import ServiceBus.Proofs.Bus.Tended

/-!
# Sends that time out

When a send times out it fails its exchange, and as a rule the reply has never been back
(`timed_out`). A send to a processor does not look for the reply, though: it waits for the processor
or for the end of the exchange. If the provider takes its reply back and the processor goes on
working, the send times out all the same, with the reply back long before the limit
(`not_unanswered_of_push`). While it waits, its processor is launched, at work or through
(`Trace.grounded`).
-/

namespace ServiceBus

/-- The send waits for a processor of `x`, or is going to launch one. -/
def Sending.Pushes (x : Nat) : Sending → Prop
  | .processing y _ _ _ | .persisting y _ (.push _) _ => y = x
  | _ => False

namespace Bus
variable {b b' b'' : Bus} {x y run u waited : Nat} {id : Option String} {pushed : Prop}

/-- The reply of `x` is back with the consumer. -/
def Back (b : Bus) (x : Nat) : Prop := (b.exchange x).owner = .consumer ∧ (b.exchange x).hops = 2

instance : Decidable (b.Back x) := inferInstanceAs (Decidable (_ ∧ _))

/-! ### Turns that time out -/

/-- From `b` to `b'` the sender of `x` has given up on it and failed it. The reply was not back,
or else `pushed`. -/
structure Lapses (b : Bus) (x : Nat) (pushed : Prop) (b' : Bus) : Prop where
  failed : (b'.exchange x).status = .error
  hops_eq : (b'.exchange x).hops = (b.exchange x).hops
  unanswered : (b.exchange x).hops = 1 ∨ pushed

theorem unanswered_of_not_reached (h : b.Dispatched x) (unreached : ¬ b.reached x .reply = true) :
    (b.exchange x).status = .active ∧ (b.exchange x).hops = 1 := by
  obtain ⟨active, owner⟩ := not_or.1 (mt h.sent.isReplied_iff.2 unreached)
  refine ⟨Decidable.not_not.1 active, ?_⟩
  obtain ⟨y, t, underway⟩ := h.sent
  obtain ⟨-, hops⟩ | ⟨back, -⟩ := underway.custody
  · exact hops
  · exact absurd back owner

namespace Lapses

theorem timedOut (h : b.Dispatched x) (active : (b.exchange x).status = .active)
    (unanswered : (b.exchange x).hops = 1 ∨ pushed) : Lapses b x pushed (b.timedOut x).1 where
  failed := (failed_failQuietly h.lt_size active _).1
  hops_eq := (Stirs.failQuietly b x _).hops_eq x h.lt_size
  unanswered := unanswered

theorem from_eq (h : Lapses b' x pushed b'') (same : b'.exchange x = b.exchange x) :
    Lapses b x pushed b'' where
  failed := h.failed
  hops_eq := same ▸ h.hops_eq
  unanswered := same ▸ h.unanswered

theorem mono {launched : Prop} (h : Lapses b x pushed b') (imp : pushed → launched) :
    Lapses b x launched b' := ⟨h.failed, h.hops_eq, h.unanswered.imp_right imp⟩

theorem awaitReply (h : b.Dispatched x)
    (out : (b.awaitReply x u).2 = .ended (.error (.timeout id waited))) :
    Lapses b x False (b.awaitReply x u).1 := by
  unfold Bus.awaitReply at out ⊢
  split at out
  · cases out
  · next unreached =>
    obtain ⟨active, hops⟩ := unanswered_of_not_reached h unreached
    rw [if_neg unreached]
    split at out
    · next expired =>
      rw [if_pos expired]
      exact timedOut h active (.inl hops)
    · cases out

theorem queued (h : b.Dispatched x)
    (out : (b.queued x).2 = .ended (.error (.timeout id waited))) :
    Lapses b x False (b.queued x).1 := by
  unfold Bus.queued at out ⊢
  split at out
  · next synchronous =>
    rw [if_pos synchronous]
    exact awaitReply h out
  · cases out

theorem enqueue {k : ComponentId} {q : Nat} {ticket : Option Nat} (h : b.Dispatched x)
    (out : (b.enqueue x k q ticket).2 = .ended (.error (.timeout id waited))) :
    Lapses b x False (b.enqueue x k q ticket).1 := by
  have slotted {p : PullQueue}
      (out : ((b.setQueue q p).queued x).2 = .ended (.error (.timeout id waited))) :
      Lapses b x False ((b.setQueue q p).queued x).1 :=
    (queued (b := b.setQueue q p) ⟨h.lt_size, h.sent⟩ out).from_eq rfl
  generalize turn : b.enqueue x k q ticket = r at out ⊢
  unfold Bus.enqueue at turn
  split at turn
  · cases turn
    cases out
  · split at turn
    · cases turn
      cases out
    · split at turn <;> split at turn <;> subst turn
      · exact slotted out
      · cases out
      · exact slotted out
      · cases out

/-- Who gives up waiting for a processor has not seen it come to its end. -/
theorem awaitProcessor (h : b.Dispatched x)
    (out : (b.awaitProcessor x run u).2 = .ended (.error (.timeout id waited))) :
    Lapses b x (b.outcomes.get? run = none) (b.awaitProcessor x run u).1 := by
  generalize turn : b.awaitProcessor x run u = r at out ⊢
  unfold Bus.awaitProcessor at turn
  split at turn
  · next o _ =>
    obtain ⟨b', k, reason, settle, -⟩ | ⟨b', settle, -⟩ := settle_cases h.lt_size run o <;>
      rw [settle] at turn <;> cases turn <;> cases out
  · next unfinished =>
    split at turn
    · cases turn
      cases out
    · next uncompleted =>
      split at turn
      · subst turn
        have active := mt h.sent.isComplete_iff.2 uncompleted
        exact timedOut h (Decidable.not_not.1 active) (.inr unfinished)
      · cases turn
        cases out

end Lapses

theorem duties_awaitProcessor (h : b.Dispatched x) (run u : Nat) :
    (b.awaitProcessor x run u).1.duties = b.duties :=
  duties_of_ledger (Minds.awaitProcessor h run u).2.1

theorem mem_duties_started (b : Bus) (x n : Nat) (awaited : Bool) :
    .processor b.fresh n x awaited ∈ (b.started x n awaited).duties := by
  simp [duties_started]

namespace Lapses
variable {t : Endpoint} {d : Delivery}

theorem deliver (h : b.Dispatched x)
    (out : (b.deliver x t d).2 = .ended (.error (.timeout id waited))) :
    Lapses b x (∃ n run, d = .push n ∧ .processor run n x true ∈ (b.deliver x t d).1.duties)
      (b.deliver x t d).1 := by
  cases d with
  | push n =>
    rw [deliver_push] at out ⊢
    split at out
    · next synchronous =>
      have started : (b.started x n true).Dispatched x := ⟨h.lt_size, h.sent⟩
      rw [if_pos synchronous]
      have lapses := (awaitProcessor started out).from_eq (b := b) rfl
      refine lapses.mono fun _ => ⟨n, b.fresh, rfl, ?_⟩
      rw [duties_awaitProcessor started]
      exact mem_duties_started b x n true
    · cases out
  | pull q =>
    have lapses := (enqueue (b := b.track x) ⟨h.lt_size, h.sent⟩ out).from_eq (b := b) rfl
    exact lapses.mono False.elim

theorem persisted {r : Turn Access StoreAnswer} (h : b.Dispatched x)
    (out : (b.persisted x t d r).2 = .ended (.error (.timeout id waited))) :
    Lapses b x (∃ n run, d = .push n ∧ .processor run n x true ∈ (b.persisted x t d r).1.duties)
      (b.persisted x t d r).1 := by
  match r with
  | .waiting _ => cases out
  | .ended (.ok _) => exact deliver h out
  | .ended (.error _) => cases out

end Lapses

theorem not_timeout_replied (t : Turn Access StoreAnswer) :
    b.replied x t ≠ .ended (.error (.timeout id waited)) := by
  match t with
  | .waiting _ | .ended (.ok _) | .ended (.error _) => exact nofun

theorem not_timeout_respond (b : Bus) (x : Nat) (id : Option String) (waited : Nat) :
    (b.respond x).2 ≠ .ended (.error (.timeout id waited)) := by
  unfold respond
  dsimp only
  split
  · exact nofun
  · split
    · exact nofun
    · split
      · exact not_timeout_replied _
      · exact nofun

/-- A send that times out at its first turn has dispatched its exchange before. -/
theorem timedOut_dispatch {t : Endpoint} {d : Delivery} (hx : x < b.exchanges.size)
    (out : (b.dispatch x t d).2 = .ended (.error (.timeout id waited))) :
    ((b.dispatch x t d).1.exchange x).status = .error ∧
      ((b.dispatch x t d).1.exchange x).hops = 1 := by
  generalize turn : b.dispatch x t d = r at out ⊢
  unfold dispatch at turn
  obtain ⟨e, h⟩ | ⟨b', h, moved⟩ := change_result hx (.dispatch t) <;> rw [h] at turn
  · cases turn
    cases out
  obtain ⟨-, sent⟩ := moved.takes_hop
  dsimp only at turn
  split at turn <;> subst turn
  · have calls := Calls.persist b' x
    have lapses := Lapses.persisted (moved.dispatched.evolves calls.evolves) out
    exact ⟨lapses.failed, lapses.hops_eq.trans ((calls.exchange_eq x).symm ▸ sent)⟩
  · have lapses := Lapses.deliver moved.dispatched out
    exact ⟨lapses.failed, lapses.hops_eq.trans sent⟩

theorem timedOut_send (hx : x < b.exchanges.size)
    (out : (b.send x).2 = .ended (.error (.timeout id waited))) :
    ((b.send x).1.exchange x).status = .error ∧ ((b.send x).1.exchange x).hops = 1 := by
  generalize turn : b.send x = r at out ⊢
  unfold send at turn
  dsimp only at turn
  split at turn
  · cases turn
    cases out
  · split at turn
    · exact absurd (turn ▸ out) (not_timeout_respond b x id waited)
    · split at turn
      · cases turn
        cases out
      · obtain ⟨-, selector, h⟩ | ⟨selector, t, -, h, -⟩ := b.resolveTarget_cases x <;>
          rw [h] at turn
        · cases turn
          cases out
        · dsimp only at turn
          split at turn <;> subst turn
          · exact timedOut_dispatch (b := { b with selector }) hx out
          · cases out

/-! ### Turns that wait for a processor -/

theorem waits_awaitProcessor {c : Sending} (h : (b.awaitProcessor x run u).2 = .waiting c) :
    b.awaitProcessor x run u = (b, .waiting c) ∧ ∃ seen, c = .processing x run u seen := by
  generalize turn : b.awaitProcessor x run u = r at h ⊢
  unfold awaitProcessor at turn
  split at turn
  · split at turn <;> cases turn <;> cases h
  · split at turn
    · cases turn
      cases h
    · split at turn
      · cases turn
        cases h
      · cases turn
        obtain rfl := Turn.waiting.inj h
        exact ⟨rfl, _, rfl⟩

/-- Who begins to wait for a processor has just launched it. -/
theorem launches_deliver {t : Endpoint} {d : Delivery} {seen : Progress}
    (h : (b.deliver x t d).2 = .waiting (.processing y run u seen)) :
    ∃ n, .processor run n y true ∈ (b.deliver x t d).1.duties := by
  cases d with
  | push n =>
    rw [deliver_push] at h ⊢
    split at h
    · next synchronous =>
      obtain ⟨turn, seen', same⟩ := waits_awaitProcessor h
      cases same
      rw [if_pos synchronous, turn]
      exact ⟨n, mem_duties_started b x n true⟩
    · cases h
  | pull q => exact (queues_enqueue h).elim

theorem launches_persisted {t : Endpoint} {d : Delivery} {seen : Progress}
    {r : Turn Access StoreAnswer}
    (h : b.persisted x t d r = (b', .waiting (.processing y run u seen))) :
    ∃ n, .processor run n y true ∈ b'.duties := by
  match r with
  | .waiting _ => cases h
  | .ended (.ok _) =>
    obtain rfl := congrArg Prod.fst h
    exact launches_deliver (congrArg Prod.snd h)
  | .ended (.error _) => cases h

/-! ### Processors that have been launched -/

theorem mem_duties_leaving {l k : Launch} {before others : List Launch}
    (launched : b.launched = before ++ k :: others) (h : l ∈ b.duties) :
    l = k ∨ l ∈ (b.leaving (before ++ others)).duties := by
  simp only [duties, leaving, launched, List.mem_filter, List.mem_append, List.mem_cons] at h ⊢
  obtain ⟨before | same | others, duty⟩ := h
  · exact .inr ⟨.inl before, duty⟩
  · exact .inl same
  · exact .inr ⟨.inr others, duty⟩

theorem Lands.mem_duties {come : List Job} {l : Launch} (h : Lands b x b' come)
    (hl : l ∈ b.duties) : l ∈ b'.duties := by
  cases h with
  | launches rests =>
    rw [rests.duties_eq, duties, launch, List.filter_append]
    exact List.mem_append_left _ hl
  | enters _ _ rests => exact rests.duties_eq ▸ hl
  | linesUp rests | refused rests => exact rests.duties_eq ▸ hl

theorem Pursues.mem_duties {come jobs : List Job} {l : Launch} (h : Pursues b jobs x b' come)
    (hl : l ∈ b.duties) : l ∈ b'.duties := by
  cases h with
  | on calls => exact calls.duties_eq ▸ hl
  | off calls => exact calls.duties_eq ▸ hl

end Bus

/-! ### Steps -/

/-- A processor that the sender of `x` awaits has been launched or is at work. -/
def Traffic.Engaged (s : Traffic) (run x : Nat) : Prop :=
  (∃ n, .processor run n x true ∈ s.bus.duties) ∨ ∃ n, .processing run n x true ∈ s.jobs

namespace Traffic
variable {s s' s₀ : Traffic} {d : Deed} {b : Bus} {jobs : List Job} {l : List Transition}
  {x run n u : Nat} {awaited : Bool} {P : Traffic → Deed → Traffic → Prop}
open Bus Transition

/-- A processor that has been launched stays so until it begins. -/
theorem Step.mem_duties (h : s.Step d s') (ordered : s.bus.Orderly s.jobs)
    (hl : .processor run n x awaited ∈ s.bus.duties) :
    .processor run n x awaited ∈ s'.bus.duties ∨ .processing run n x awaited ∈ s'.jobs := by
  have passage := h.passage ordered
  generalize s'.bus = b, s'.jobs = jobs at passage ⊢
  cases passage with
  | aside _ _ rests => exact .inl (rests.duties_eq ▸ hl)
  | waits submits => exact .inl (submits.rests.duties_eq ▸ hl)
  | refused submits rests => exact .inl ((submits.rests.trans rests).duties_eq ▸ hl)
  | @lands y _ _ _ b₁ _ _ _ _ submits lands =>
    refine .inl (lands.mem_duties ?_)
    rw [duties_track, submits.rests.duties_eq]
    exact List.mem_append_left _ hl
  | queues _ lands => exact .inl (lands.mem_duties hl)
  | begins launched =>
    refine (mem_duties_leaving launched hl).symm.imp_right fun same => ?_
    cases same
    exact List.mem_cons_self
  | tracks launched pursues =>
    exact .inl (pursues.mem_duties ((mem_duties_leaving launched hl).resolve_left nofun))
  | follows _ pursues => exact .inl (pursues.mem_duties hl)

/-- A processor at work stays so until it comes to its end. -/
theorem Step.mem_processing (h : s.Step d s') (hj : .processing run n x awaited ∈ s.jobs) :
    .processing run n x awaited ∈ s'.jobs ∨ ∃ o, d = .finish run x awaited o := by
  cases h with
  | ask | take => exact .inl (List.mem_append_right _ hj)
  | resume job =>
    rcases List.mem_cons.1 (job.mem_iff.1 hj) with rfl | hj
    · exact .inl List.mem_cons_self
    · exact .inl (List.mem_append_right _ hj)
  | finish o job =>
    rcases List.mem_cons.1 (job.mem_iff.1 hj) with same | hj
    · cases same
      exact .inr ⟨o, rfl⟩
    · exact .inl hj
  | abandon call job =>
    rcases List.mem_cons.1 (job.mem_iff.1 hj) with rfl | hj
    · cases call
    · exact .inl hj
  | serve | pass => exact .inl hj

theorem Step.engaged (h : s.Step d s') (ordered : s.bus.Orderly s.jobs)
    (engaged : s.Engaged run x) : s'.Engaged run x ∨ ∃ o, d = .finish run x true o := by
  obtain ⟨n, hl⟩ | ⟨n, hj⟩ := engaged
  · exact .inl ((h.mem_duties ordered hl).imp (fun hl => ⟨n, hl⟩) fun hj => ⟨n, hj⟩)
  · exact (h.mem_processing hj).imp_left fun hj => .inr ⟨n, hj⟩

/-- The end of a processor is noted if its sender awaits it, and stays noted. -/
theorem Event.noted (h : s.Event d b jobs) (ordered : s.bus.Orderly s.jobs)
    (noted : s.bus.outcomes.contains run = true ∨ ∃ x o, d = .finish run x true o) :
    b.outcomes.contains run = true := by
  have old (deed : ∀ x o, d ≠ .finish run x true o) (same : b.outcomes = s.bus.outcomes) :
      b.outcomes.contains run = true :=
    same ▸ noted.resolve_right fun ⟨x, o, e⟩ => deed x o e
  cases h with
  | plain _ _ deed stirs =>
    refine old (fun x o e => ?_) (congrArg Ledger.outcomes stirs.ledger_eq)
    rw [e] at deed
    cases deed
  | send hx => exact old (fun _ _ => nofun) (Minds.send hx).outcomes_eq
  | respond hx => exact old (fun _ _ => nofun) (Minds.respond hx).outcomes_eq
  | resumeSend job =>
    have ordered := ordered.mono (fun j hj => .inl (job.mem_iff.2 hj)) (fun _ hl => hl) (.refl _)
    exact old (fun _ _ => nofun) (Minds.resumeSend ordered).outcomes_eq
  | retrieve id => exact old (fun _ _ => nofun) (Calls.retrieve _ id).outcomes_eq
  | resumeRetrieve => exact old (fun _ _ => nofun) (Calls.resumeAccess _ _).outcomes_eq
  | track => exact old (fun _ _ => nofun) (Minds.follow _ _ _).outcomes_eq
  | resumeTracking => exact old (fun _ _ => nofun) (Minds.resumeTracking _ _).outcomes_eq
  | process | serve => exact old (fun _ _ => nofun) rfl
  | @finish run' n y awaited others o job =>
    rw [contains_finish (ordered y (.inl ⟨_, job.mem_iff.2 List.mem_cons_self, rfl⟩))]
    refine noted.imp_right fun ⟨x, o, e⟩ => ?_
    cases e
    exact ⟨rfl, rfl⟩

/-- Who waits for a processor after a step has waited for it before, or has just launched it. -/
theorem Step.processing_cases {seen : Progress} (h : s.Step d s')
    (hc : .sending (.processing x run u seen) ∈ s'.jobs) :
    (∃ seen, .sending (.processing x run u seen) ∈ s.jobs) ∨
      ∃ n, .processor run n x true ∈ s'.bus.duties := by
  rcases h.sending_cases hc with
    hc | ⟨y, rfl, hy, turn⟩ | ⟨y, rfl, hy, turn⟩ | ⟨e, others, rfl, job, turn⟩
  · exact .inl ⟨seen, hc⟩
  · obtain ⟨b, r, -, -, send⟩ | send | ⟨t, dl, b, r, -, -, send⟩ := send_turn hy
    · cases turn.symm.trans send
    · cases deadline_respond hy (congrArg Prod.snd (send.symm.trans turn))
    · exact .inr (launches_persisted (send.symm.trans turn))
  · cases deadline_respond hy (congrArg Prod.snd turn)
  · have waits : (s.bus.resumeSend e).2 = .waiting (.processing x run u seen) :=
      congrArg Prod.snd turn
    cases e with
    | persisting y t dl a => exact .inr (launches_persisted turn)
    | processing y run' v seen' =>
      obtain ⟨-, seen'', same⟩ := waits_awaitProcessor waits
      cases same
      exact .inl ⟨seen', job.mem_iff.2 List.mem_cons_self⟩
    | queueing y k q ticket => exact (queues_enqueue waits).elim
    | replying y v seen' => exact (queues_awaitReply waits).elim
    | responding y a => cases deadline_replied waits

/-- If a send waits for a processor, that has been launched or is at work, or its end has been
noted. -/
def Grounded (s : Traffic) : Prop :=
  ∀ x run u seen, .sending (.processing x run u seen) ∈ s.jobs →
    s.Engaged run x ∨ s.bus.outcomes.contains run = true

theorem Grounded.step (h : s.Grounded) (step : s.Step d s') (ordered : s.bus.Orderly s.jobs) :
    s'.Grounded := by
  intro x run u seen hc
  have noted (noted : s.bus.outcomes.contains run = true ∨ ∃ x o, d = .finish run x true o) :
      s'.bus.outcomes.contains run = true := step.event.noted ordered noted
  obtain ⟨seen', hc⟩ | launched := step.processing_cases hc
  · obtain engaged | through := h x run u seen' hc
    · exact (step.engaged ordered engaged).imp_right fun ⟨o, e⟩ => noted (.inr ⟨x, o, e⟩)
    · exact .inr (noted (.inl through))
  · exact .inl (.inl launched)

theorem Trace.grounded (fresh : s₀.Fresh) (h : Trace P s₀ l s) : s.Grounded := by
  induction h with
  | start => simp [Grounded, fresh.no_jobs]
  | step trace step _ ih => exact ih.step step (trace.course.orderly fresh.orderly)

end Traffic

/-! ### Sends that time out -/

/-- A send of `x` ends in the turn of the deed, with this result. -/
inductive Deed.Answers (b : Bus) (r : SendResult) : Deed → Nat → Prop
  | send {x : Nat} (turn : (b.send x).2 = .ended r) : Answers b r (.ask (.send x)) x
  | resume {c : Sending} (turn : (b.resumeSend c).2 = .ended r) :
    Answers b r (.resume (.sending c)) c.exchange

def Transition.TimesOut (t : Transition) (x : Nat) : Prop :=
  ∃ id waited, t.deed.Answers t.before.bus (.error (.timeout id waited)) x

namespace Traffic
variable {s s' s₀ : Traffic} {d : Deed} {l : List Transition} {x : Nat}
  {P : Traffic → Deed → Traffic → Prop}
open Bus Transition

/-- What is known when a send of `x` times out in `t`. -/
structure TimedOut (l : List Transition) (t : Transition) (x : Nat) : Prop where
  /-- The exchange has been failed. -/
  failed : (t.after.bus.exchange x).status = .error
  /-- The reply has never been back. Or else the send has gone to a processor that has still to
  begin or is at work, and it is the provider who has taken the reply back. -/
  unanswered : (∀ u ∈ t :: l, ¬ u.before.bus.Back x ∧ ¬ u.after.bus.Back x) ∨
    (∃ c, t.deed = .resume (.sending c) ∧ c.Pushes x) ∧ (∃ run, t.after.Engaged run x) ∧
      ∃ u ∈ l, u.TakesBack x

theorem Trace.hops_le {u : Transition} (h : Trace P s₀ l s) (hu : u ∈ l) (x : Nat) :
    (u.before.bus.exchange x).hops ≤ (s.bus.exchange x).hops ∧
      (u.after.bus.exchange x).hops ≤ (s.bus.exchange x).hops := by
  obtain ⟨later, earlier, rfl⟩ := List.append_of_mem hu
  obtain ⟨-, step, -, rest⟩ := h.split rfl
  have after := rest.evolves.hops_le x
  exact ⟨Nat.le_trans (step.evolves.hops_le x) after, after⟩

/-- What has not come back at the end of a run has never been back. -/
theorem Trace.never_back (h : Trace P s₀ l s) (step : s.Step d s')
    (hops : (s'.bus.exchange x).hops = 1) :
    ∀ u ∈ ⟨s, d, s'⟩ :: l, ¬ u.before.bus.Back x ∧ ¬ u.after.bus.Back x := by
  intro u hu
  have last := step.evolves.hops_le x
  have le : (u.before.bus.exchange x).hops ≤ 1 ∧ (u.after.bus.exchange x).hops ≤ 1 := by
    rcases List.mem_cons.1 hu with rfl | hu
    · exact ⟨hops ▸ last, Nat.le_of_eq hops⟩
    · obtain ⟨before, after⟩ := h.hops_le hu x
      omega
  exact ⟨fun back => by have := back.2; omega, fun back => by have := back.2; omega⟩

/-- A pending send that times out has failed its exchange. If the reply was back, it has gone to a
processor that is not through. -/
theorem Step.lapses {c : Sending} {id : Option String} {waited : Nat}
    (step : s.Step (.resume (.sending c)) s') (ordered : s.bus.Orderly s.jobs)
    (grounded : s.Grounded) (out : (s.bus.resumeSend c).2 = .ended (.error (.timeout id waited))) :
    c.Concerns c.exchange ∧ .sending c ∈ s.jobs ∧
      Lapses s.bus c.exchange (c.Pushes c.exchange ∧ ∃ run, s'.Engaged run c.exchange) s'.bus := by
  have bus : s'.bus = (s.bus.resumeSend c).1 := by
    cases step
    rfl
  have hc : .sending c ∈ s.jobs := by
    cases step with
    | resume job => exact job.mem_iff.2 List.mem_cons_self
  have dispatched (concerns : c.Concerns c.exchange) : s.bus.Dispatched c.exchange :=
    ordered _ (.inl ⟨_, hc, concerns⟩)
  cases c with
  | persisting y t dl a =>
    have calls := Calls.resumeAccess s.bus a
    have lapses := Lapses.persisted ((dispatched rfl).evolves calls.evolves) out
    refine ⟨rfl, hc, bus ▸ (lapses.from_eq (calls.exchange_eq y)).mono ?_⟩
    rintro ⟨n, run, rfl, launched⟩
    exact ⟨rfl, run, .inl ⟨n, bus ▸ launched⟩⟩
  | processing y run u seen =>
    refine ⟨rfl, hc, bus ▸ (Lapses.awaitProcessor (dispatched rfl) out).mono fun unfinished => ?_⟩
    obtain engaged | through := grounded y run u seen hc
    · exact ⟨rfl, run, (step.engaged ordered engaged).resolve_right nofun⟩
    · rw [Table.contains, unfinished] at through
      cases through
  | queueing y k q ticket =>
    exact ⟨rfl, hc, bus ▸ (Lapses.enqueue (dispatched rfl) out).mono False.elim⟩
  | replying y u seen =>
    exact ⟨rfl, hc, bus ▸ (Lapses.awaitReply (dispatched rfl) out).mono False.elim⟩
  | responding y a => exact absurd out (not_timeout_replied _)

/-- A send fails its exchange when it times out, and its reply has never been back, unless it waits
for a processor that has not come to its end and the provider has taken the reply back. -/
theorem timed_out (fresh : s₀.Fresh) (trace : Trace P s₀ l s) (step : s.Step d s')
    (out : TimesOut ⟨s, d, s'⟩ x) : TimedOut l ⟨s, d, s'⟩ x := by
  have ordered := trace.course.orderly fresh.orderly
  obtain ⟨id, waited, out⟩ := out
  cases out with
  | send out =>
    obtain ⟨failed, hops⟩ : (s'.bus.exchange x).status = .error ∧ (s'.bus.exchange x).hops = 1 := by
      cases step with
      | ask proper => exact timedOut_send proper out
    exact ⟨failed, .inl (trace.never_back step hops)⟩
  | @resume c out =>
    obtain ⟨concerns, hc, lapses⟩ := step.lapses ordered (trace.grounded fresh) out
    refine ⟨lapses.failed, ?_⟩
    obtain hops | ⟨pushes, engaged⟩ := lapses.unanswered
    · exact .inl (trace.never_back step (lapses.hops_eq.trans hops))
    · obtain hops | taken := (trace.tended fresh).2 c _ hc concerns
      · exact .inl (trace.never_back step (lapses.hops_eq.trans hops))
      · exact .inr ⟨⟨c, rfl, pushes⟩, engaged, taken⟩

/-- The provider replies and takes the reply back at once, but its processor is still at work when
the time is up. -/
theorem overdue_served : ∃ l s s' d, Trace Unhurried served l s ∧ s.Step d s' ∧
    TimesOut ⟨s, d, s'⟩ 0 ∧ s.bus.Back 0 := by
  have idle : Trace Unhurried served [] served := .start
  have sent := idle.step (.ask (r := .send 0) Nat.one_pos) fun _ => nofun
  have tracked := sent.step (@Step.take _ (.tracker 0 false) [] [.processor 1 0 0 true] rfl)
    fun _ => nofun
  have begun := tracked.step (@Step.take _ (.processor 1 0 0 true) [] [] rfl) fun _ => nofun
  have replied := begun.step (.ask (r := .change 0 (.setOut .empty)) ⟨Nat.one_pos, rfl⟩)
    fun _ => nofun
  have back := replied.step (.ask (r := .respond 0) Nat.one_pos) fun _ => nofun
  -- the sender and the tracker see the reply come back, and go on waiting
  have seen := back.step (@Step.resume _
    (.sending (.processing 0 1 1000 ⟨.active, .provider, 1⟩)) _
    (@List.perm_middle _ _ [_, _] [])) fun _ => nofun
  have noticed := seen.step (@Step.resume _
    (.tracking (.watching 0 false ⟨.active, .provider, 1⟩)) _
    (@List.perm_middle _ _ [_, _] [])) fun _ => nofun
  have expired := noticed.step (@Step.pass _ 1000 (Nat.zero_le _)) fun t e => by
    cases e
    exact ⟨⟨rfl, by decide⟩, by decide⟩
  exact ⟨_, _, _, _, expired,
    @Step.resume _ (.sending (.processing 0 1 1000 ⟨.active, .consumer, 2⟩)) _ (.swap _ _ _),
    ⟨_, _, .resume rfl⟩, rfl, rfl⟩

theorem timed_out_served : ∃ l s s' d, served.Fresh ∧ Trace Unhurried served l s ∧ s.Step d s' ∧
    TimesOut ⟨s, d, s'⟩ 0 ∧ TimedOut l ⟨s, d, s'⟩ 0 := by
  have fresh : served.Fresh := ⟨rfl, rfl, rfl, rfl⟩
  obtain ⟨l, s, s', d, trace, step, out, -⟩ := overdue_served
  exact ⟨l, s, s', d, fresh, trace, step, out, timed_out fresh trace step out⟩

/-- A send to a processor can time out although the reply is back. -/
theorem not_unanswered_of_push : ¬ ∀ (s₀ s s' : Traffic) (l : List Transition) (d : Deed)
    (x : Nat), s₀.Fresh → Trace Unhurried s₀ l s → s.Step d s' → TimesOut ⟨s, d, s'⟩ x →
      ¬ s.bus.Back x := by
  intro claimed
  obtain ⟨l, s, s', d, trace, step, out, back⟩ := overdue_served
  exact claimed served s s' l d 0 ⟨rfl, rfl, rfl, rfl⟩ trace step out back

end Traffic
end ServiceBus
