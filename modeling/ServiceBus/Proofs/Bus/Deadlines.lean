import ServiceBus.Proofs.Bus.Lines
import ServiceBus.Proofs.Bus.Processed

/-!
# How long synchronous sends wait

A send that waits for a processor or a reply has a deadline, which it gets when it begins to wait:
when its exchange has been written down, or need not be, or when it gets its slot in a queue
(`Transition.Delivers`). As long as time does not pass while somebody could go on, none of them waits
beyond its deadline, and at the deadline it answers (`sends_bounded`). A send in line for a slot has no
deadline, however long it stands there (`not_bounded_of_queueing`).
-/

namespace ServiceBus

/-- What is waited for does not come before the time `t`. -/
def Wait.Allows (t : Nat) : Wait → Prop
  | .time u => t ≤ u
  | _ => True

instance (t : Nat) : DecidablePred (Wait.Allows t)
  | .time u => inferInstanceAs (Decidable (t ≤ u))
  | .exchange .. | .outcome _ | .stopped | .closed _ | .slot .. | .front .. | .item .. | .idle
  | .disk _ => .isTrue trivial

namespace Sending

/-- When the send gives up waiting for a processor or a reply. -/
def deadline? : Sending → Option Nat
  | .processing _ _ deadline _ | .replying _ deadline _ => some deadline
  | _ => none

/-- Whether the send waits for something to be written down. -/
def isWriting : Sending → Bool
  | .persisting .. | .responding .. => true
  | _ => false

/-- Whether the send stands in line for a slot. -/
def isLinedUp : Sending → Bool
  | .queueing .. => true
  | _ => false

/-- Neither the processor's end nor a reply nor the end of the exchange has come. -/
def Unanswered (b : Bus) : Sending → Prop
  | .processing x run _ _ => b.outcomes.get? run = none ∧ (b.exchange x).status = .active
  | .replying x _ _ => (b.exchange x).status = .active ∧ (b.exchange x).owner = .provider
  | _ => False

theorem time_mem_waits {c : Sending} {u : Nat} (h : c.deadline? = some u) : .time u ∈ c.waits := by
  cases c with
  | processing | replying =>
    obtain rfl := Option.some.inj h
    simp [waits]
  | _ => cases h

theorem deadline?_cases (c : Sending) :
    c.isWriting = true ∨ c.isLinedUp = true ∨ ∃ u, c.deadline? = some u := by
  cases c with
  | persisting | responding => exact .inl rfl
  | queueing => exact .inr (.inl rfl)
  | processing _ _ u | replying _ u => exact .inr (.inr ⟨u, rfl⟩)

end Sending

/-! ### Deadlines are set -/

namespace Bus
variable {b : Bus} {x u q : Nat} {c : Sending} {k : ComponentId} {ticket : Option Nat}

theorem deadline_awaitProcessor {run : Nat} (h : (b.awaitProcessor x run u).2 = .waiting c) :
    c.deadline? = some u ∧ c.exchange = x := by
  unfold awaitProcessor at h
  split at h
  · split at h <;> cases h
  · split at h
    · cases h
    · split at h
      · cases h
      · obtain rfl := Turn.waiting.inj h
        exact ⟨rfl, rfl⟩

theorem deadline_awaitReply (h : (b.awaitReply x u).2 = .waiting c) :
    c.deadline? = some u ∧ c.exchange = x := by
  unfold awaitReply at h
  split at h
  · cases h
  · split at h
    · cases h
    · obtain rfl := Turn.waiting.inj h
      exact ⟨rfl, rfl⟩

theorem deadline_queued (h : (b.queued x).2 = .waiting c) :
    c.deadline? = some (b.now + b.settings.syncTimeout) ∧ c.exchange = x := by
  unfold queued at h
  split at h
  · exact deadline_awaitReply h
  · cases h

/-- Who waits with a deadline after a turn at a queue has got a slot in it. -/
theorem deadline_enqueue (h : (b.enqueue x k q ticket).2 = .waiting c)
    (deadline : c.deadline? = some u) : u = b.now + b.settings.syncTimeout ∧ c.exchange = x ∧
      ((b.enqueue x k q ticket).1.queue q).items = (b.queue q).items ++ [x] := by
  have slotted {p : PullQueue} (there : q < b.queues.length)
      (put : p.items = (b.queue q).items ++ [x]) (h : ((b.setQueue q p).queued x).2 = .waiting c) :
      u = b.now + b.settings.syncTimeout ∧ c.exchange = x ∧
        (((b.setQueue q p).queued x).1.queue q).items = (b.queue q).items ++ [x] := by
    obtain ⟨set, exchange⟩ := deadline_queued h
    refine ⟨Option.some.inj (deadline.symm.trans set), exchange, ?_⟩
    rw [queue_congr (queues_eq_queued _ x), queue_setQueue, if_pos ⟨rfl, there⟩, put]
  generalize turn : b.enqueue x k q ticket = r at h ⊢
  unfold enqueue at turn
  split at turn
  · cases turn
    cases h
  · split at turn
    · cases turn
      cases h
    · split at turn <;> split at turn <;> subst turn
      · next p offered =>
        exact slotted (lt_length_of_offer? offered) (PullQueue.items_of_offer? offered) h
      · cases h
        cases deadline
      · next p used => exact slotted (lt_length_of_use? used) (PullQueue.items_of_use? used) h
      · cases h
        cases deadline

theorem deadline_deliver {t : Endpoint} {d : Delivery} (h : (b.deliver x t d).2 = .waiting c)
    (deadline : c.deadline? = some u) :
    u = b.now + b.settings.syncTimeout ∧ c.exchange = x := by
  cases d with
  | push n =>
    rw [deliver_push] at h
    split at h
    · obtain ⟨set, exchange⟩ := deadline_awaitProcessor h
      exact ⟨Option.some.inj (deadline.symm.trans set), exchange⟩
    · cases h
  | pull q =>
    obtain ⟨set, exchange, -⟩ := deadline_enqueue (b := b.track x) h deadline
    exact ⟨set, exchange⟩

theorem deadline_persisted {t : Endpoint} {d : Delivery} {r : Turn Access StoreAnswer}
    (h : (b.persisted x t d r).2 = .waiting c) (deadline : c.deadline? = some u) :
    (∃ v, r = .ended (.ok v)) ∧ u = b.now + b.settings.syncTimeout ∧ c.exchange = x := by
  match r with
  | .waiting a =>
    obtain rfl := Turn.waiting.inj h
    cases deadline
  | .ended (.ok v) => exact ⟨⟨v, rfl⟩, deadline_deliver h deadline⟩
  | .ended (.error e) => cases h

theorem deadline_replied {t : Turn Access StoreAnswer} (h : b.replied x t = .waiting c) :
    c.deadline? = none := by
  match t with
  | .waiting a =>
    obtain rfl := Turn.waiting.inj h
    rfl
  | .ended (.ok _) | .ended (.error _) => cases h

theorem deadline_respond (hx : x < b.exchanges.size) (h : (b.respond x).2 = .waiting c) :
    c.deadline? = none := by
  obtain ⟨r, turn⟩ | ⟨b', -, turn⟩ := respond_cases hx <;> rw [turn] at h
  · cases h
  · split at h
    · exact deadline_replied h
    · cases h

/-! ### Deadlines are kept -/

theorem not_reached_completion (h : b.Dispatched x) (active : (b.exchange x).status = .active) :
    ¬ b.reached x .completion = true := fun ended => h.sent.isComplete_iff.1 ended active

theorem timedOut_of_processing {run : Nat} (h : b.Dispatched x) (expired : b.holds (.time u) = true)
    (unfinished : b.outcomes.get? run = none) (active : (b.exchange x).status = .active) :
    b.awaitProcessor x run u = b.timedOut x := by
  unfold awaitProcessor
  rw [unfinished]
  dsimp only
  rw [if_neg (not_reached_completion h active), if_pos expired]

/-- Once its deadline has come, a send that waits with one answers, and its exchange is settled. If
nothing else has come, it has failed the exchange and answers that it timed out. -/
theorem answers_of_deadline (deadline : c.deadline? = some u) (expired : u ≤ b.now)
    (dispatched : b.Dispatched c.exchange) : ∃ b' r, b.resumeSend c = (b', .ended r) ∧
      (b'.exchange c.exchange).Settled ∧ (c.Unanswered b →
        r = .error (.timeout (some (b.exchange c.exchange).id) b.settings.syncTimeout) ∧
          (b'.exchange c.exchange).status = .error) := by
  have expired : b.holds (.time u) = true := decide_eq_true expired
  cases c with
  | processing x run v seen =>
    obtain rfl := Option.some.inj deadline
    obtain ⟨b', r, turn, settled, -⟩ | ⟨seen', unfinished, turn⟩ :=
      awaitProcessor_cases dispatched.lt_size dispatched.sent run v
    · refine ⟨b', r, turn, settled, fun ⟨unfinished, active⟩ => ?_⟩
      rw [timedOut_of_processing dispatched expired unfinished active] at turn
      obtain ⟨rfl, e⟩ := Prod.mk.inj turn
      obtain rfl := Turn.ended.inj e
      exact ⟨rfl, (failed_failQuietly dispatched.lt_size active _).1⟩
    · unfold awaitProcessor at turn
      rw [unfinished] at turn
      dsimp only at turn
      rw [if_pos expired] at turn
      split at turn <;> cases congrArg Prod.snd turn
  | replying x v seen =>
    obtain rfl := Option.some.inj deadline
    show ∃ b' r, b.awaitReply x v = _ ∧ _
    unfold awaitReply
    rw [if_pos expired]
    split
    · next reached =>
      have answered := dispatched.sent.isReplied_iff.1 reached
      refine ⟨b, _, rfl, dispatched.sent.settled answered, fun ⟨active, owner⟩ => ?_⟩
      obtain ended | owner' := answered
      · exact absurd active ended
      · cases owner.symm.trans owner'
    · refine ⟨_, _, rfl, .inl (terminal_failQuietly dispatched.lt_size _), fun ⟨active, _⟩ => ?_⟩
      exact ⟨rfl, (failed_failQuietly dispatched.lt_size active _).1⟩
  | _ => cases deadline

end Bus

/-! ### Steps -/

/-- The send of `x` is through with writing it down, or has been spared that. -/
def Transition.Submitted (t : Transition) (x : Nat) : Prop :=
  ∃ target dl b v others, t.before.Submits x target dl t.deed b (.ended (.ok v)) others

/-- The send of `x` begins to wait for an answer: it is through with writing it down, or has got its
slot in a queue. -/
inductive Transition.Delivers (t : Transition) (x : Nat) : Prop
  | submitted (submitted : t.Submitted x)
  | slotted {c : ComponentId} {q ticket : Nat}
    (deed : t.deed = .resume (.sending (.queueing x c q ticket))) (puts : t.Puts x q)

namespace Traffic
variable {s s' s₀ : Traffic} {d : Deed} {l : List Transition} {c : Sending} {x u : Nat}
open Bus Transition

/-- Only the passing of time sets the clock. -/
theorem Step.now_eq (h : s.Step d s') (stays : ∀ t, d ≠ .pass t) : s'.bus.now = s.bus.now := by
  have outlined := h.outlined
  show s'.bus.outline.now = s.bus.now
  generalize s'.bus.outline = o at outlined
  cases outlined with
  | passes t => exact absurd rfl (stays t)
  | _ => rfl

/-- What is on offer since a step has been written down in it, or has been spared that. -/
theorem Step.submitted_of_offered (h : s.Step d s') (ordered : s.bus.Orderly s.jobs)
    (offered : s'.Offered x) (new : ¬ s.Offered x) : Submitted ⟨s, d, s'⟩ x := by
  obtain old | ⟨t, dl, b, v, come, others, submits, -⟩ :=
    (h.leg ordered x).offered (.inr offered)
  · exact absurd old new
  · exact ⟨t, dl, b, v, others, submits⟩

/-- A send that waits with a deadline after a step has had it before, or gets it as its exchange is
delivered. -/
theorem Step.deadline_cases (h : s.Step d s') (hc : .sending c ∈ s'.jobs)
    (deadline : c.deadline? = some u) :
    (∃ e, .sending e ∈ s.jobs ∧ e.deadline? = some u ∧ e.exchange = c.exchange) ∨
      (u = s.bus.now + s.bus.settings.syncTimeout ∧ Delivers ⟨s, d, s'⟩ c.exchange ∧
        ∀ t, d ≠ .pass t) := by
  -- a send whose exchange has been written down goes on to deliver it
  have submitted {y : Nat} {t : Endpoint} {dl : Delivery} {b : Bus}
      {r : Turn Access StoreAnswer} {others : List Job} (submits : s.Submits y t dl d b r others)
      (bus : s'.bus = (b.persisted y t dl r).1)
      (waits : (b.persisted y t dl r).2 = .waiting c) (stays : ∀ t, d ≠ .pass t) :
      u = s.bus.now + s.bus.settings.syncTimeout ∧ Delivers ⟨s, d, s'⟩ c.exchange ∧
        ∀ t, d ≠ .pass t := by
    obtain ⟨⟨v, rfl⟩, set, exchange⟩ := deadline_persisted waits deadline
    have now : s'.bus.now = b.now := by
      rw [bus]
      exact congrArg Outline.now (outline_eq (Feeds.persisted b y t dl _).scene_eq)
    rw [← now, h.now_eq stays, submits.rests.settings_eq] at set
    exact ⟨set, .submitted ⟨t, dl, b, v, others, exchange ▸ submits⟩, stays⟩
  rcases h.sending_cases hc with
    hc | ⟨y, rfl, hy, turn⟩ | ⟨y, rfl, hy, turn⟩ | ⟨e, others, rfl, job, turn⟩
  · exact .inl ⟨c, hc, deadline, rfl⟩
  · obtain ⟨b, r, -, -, send⟩ | send | ⟨t, dl, b, r, -, submits, send⟩ := send_turn hy
    · cases turn.symm.trans send
    · cases (deadline_respond hy (congrArg Prod.snd (send.symm.trans turn))).symm.trans deadline
    · have turn := send.symm.trans turn
      exact .inr (submitted submits (congrArg Prod.fst turn).symm (congrArg Prod.snd turn)
        fun _ => nofun)
  · cases (deadline_respond hy (congrArg Prod.snd turn)).symm.trans deadline
  · have he : .sending e ∈ s.jobs := job.mem_iff.2 List.mem_cons_self
    have waits : (s.bus.resumeSend e).2 = .waiting c := congrArg Prod.snd turn
    cases e with
    | persisting y t dl a =>
      have bus : s'.bus = (s.bus.resumeSend (.persisting y t dl a)).1 :=
        (congrArg Prod.fst turn).symm
      exact .inr (submitted (.resumed job rfl) bus waits fun _ => nofun)
    | processing y run v seen =>
      obtain ⟨set, exchange⟩ := deadline_awaitProcessor waits
      exact .inl ⟨_, he, set.symm.trans deadline, exchange.symm⟩
    | replying y v seen =>
      obtain ⟨set, exchange⟩ := deadline_awaitReply waits
      exact .inl ⟨_, he, set.symm.trans deadline, exchange.symm⟩
    | queueing y k q ticket =>
      obtain ⟨set, rfl, put⟩ := deadline_enqueue waits deadline
      have bus : s'.bus = (s.bus.enqueue c.exchange k q (some ticket)).1 :=
        (congrArg Prod.fst turn).symm
      refine .inr ⟨set, .slotted rfl ?_, fun _ => nofun⟩
      rw [Puts, bus]
      exact put
    | responding y a => cases (deadline_replied waits).symm.trans deadline

/-- Time passes only when nobody can go on, and not past what somebody waits for. -/
def Unhurried (s : Traffic) (d : Deed) (_ : Traffic) : Prop :=
  ∀ t, d = .pass t → s.Quiet ∧ ∀ j ∈ s.jobs, ∀ w ∈ j.waits, w.Allows t

/-- Every deadline was set when the exchange was delivered, and has not been missed. -/
def OnTime (l : List Transition) (s : Traffic) : Prop :=
  ∀ c u, .sending c ∈ s.jobs → c.deadline? = some u → s.bus.now ≤ u ∧
    ∃ t ∈ l, t.Delivers c.exchange ∧ u = t.before.bus.now + s.bus.settings.syncTimeout

theorem OnTime.step (h : OnTime l s) (step : s.Step d s') (ordered : s.bus.Orderly s.jobs)
    (unhurried : Unhurried s d s') : OnTime (⟨s, d, s'⟩ :: l) s' := by
  intro c u hc deadline
  have settings := step.settings_eq ordered
  obtain ⟨e, he, set, exchange⟩ | ⟨rfl, delivers, stays⟩ := step.deadline_cases hc deadline
  · obtain ⟨left, t, ht, delivers, set_at⟩ := h e u he set
    refine ⟨?_, t, .tail _ ht, exchange ▸ delivers, settings ▸ set_at⟩
    by_cases passes : ∃ t, d = .pass t
    · obtain ⟨t, rfl⟩ := passes
      have now : s'.bus.now = t := by
        cases step
        rfl
      rw [now]
      exact (unhurried t rfl).2 _ he _ (Sending.time_mem_waits set)
    · rw [step.now_eq fun t e => passes ⟨t, e⟩]
      exact left
  · refine ⟨?_, _, List.mem_cons_self, delivers, settings ▸ rfl⟩
    rw [step.now_eq stays]
    exact Nat.le_add_right _ _

theorem Trace.onTime (fresh : s₀.Fresh) (h : Trace Unhurried s₀ l s) : OnTime l s := by
  induction h with
  | start => simp [OnTime, fresh.no_jobs]
  | step trace step unhurried ih => exact ih.step step (trace.course.orderly fresh.orderly) unhurried

/-! ### How long sends wait -/

/-- How long sends are pending. -/
structure Bounded (l : List Transition) (s : Traffic) : Prop where
  /-- A send that is pending waits for something to be written down, or stands in line for a slot,
  or it has begun to wait for its answer no longer ago than synchronous sends may wait; and if nobody
  can go on, less long ago. -/
  pending : ∀ c, .sending c ∈ s.jobs → c.isWriting = true ∨ c.isLinedUp = true ∨
    ∃ t ∈ l, t.Delivers c.exchange ∧
      s.bus.now ≤ t.before.bus.now + s.bus.settings.syncTimeout ∧
      (s.Quiet → s.bus.now < t.before.bus.now + s.bus.settings.syncTimeout)
  /-- When it has waited so long, it answers at its next turn, and its exchange has ended or is back
  with its reply. If neither had come, nor the processor's end, it has failed the exchange, and the
  answer is that it timed out. -/
  answered : ∀ c u, .sending c ∈ s.jobs → c.deadline? = some u → u ≤ s.bus.now →
    ∃ b r, s.bus.resumeSend c = (b, .ended r) ∧ (b.exchange c.exchange).Settled ∧
      (c.Unanswered s.bus → r = .error
          (.timeout (some (s.bus.exchange c.exchange).id) s.bus.settings.syncTimeout) ∧
        (b.exchange c.exchange).status = .error)

/-- Whatever providers and acceptors do, a send waits for its answer as long as it may, and no
longer. -/
theorem sends_bounded (fresh : s₀.Fresh) (trace : Trace Unhurried s₀ l s) : Bounded l s := by
  have on_time := trace.onTime fresh
  refine ⟨fun c hc => ?_, fun c u hc deadline expired => ?_⟩
  · refine c.deadline?_cases.imp_right (.imp_right fun ⟨u, deadline⟩ => ?_)
    obtain ⟨left, t, ht, delivers, rfl⟩ := on_time c u hc deadline
    refine ⟨t, ht, delivers, left, fun quiet => ?_⟩
    have waits := quiet.waiting _ hc _ (Sending.time_mem_waits deadline)
    exact Nat.lt_of_not_le (of_decide_eq_false waits)
  · have concerns : c.Concerns c.exchange := by
      cases c with
      | processing | replying => rfl
      | _ => cases deadline
    have ordered := trace.course.orderly fresh.orderly
    exact answers_of_deadline deadline expired (ordered _ (.inl ⟨_, hc, concerns⟩))

/-- The processor neither replies nor returns until the time is up. -/
theorem sends_bounded_served : ∃ l s c, served.Fresh ∧ Trace Unhurried served l s ∧
    .sending c ∈ s.jobs ∧ c.deadline? = some s.bus.now ∧ c.Unanswered s.bus ∧ Bounded l s := by
  have fresh : served.Fresh := ⟨rfl, rfl, rfl, rfl⟩
  have idle : Trace Unhurried served [] served := .start
  have sent := idle.step (.ask (r := .send 0) Nat.one_pos) fun _ => nofun
  have tracked := sent.step (@Step.take _ (.tracker 0 false) [] [.processor 1 0 0 true] rfl)
    fun _ => nofun
  have begun := tracked.step (@Step.take _ (.processor 1 0 0 true) [] [] rfl) fun _ => nofun
  have expired := begun.step (@Step.pass _ 1000 (Nat.zero_le _)) fun t e => by
    cases e
    exact ⟨⟨rfl, by decide⟩, by decide⟩
  exact ⟨_, _, .processing 0 1 1000 ⟨.active, .provider, 1⟩, fresh, expired,
    .tail _ (.tail _ List.mem_cons_self), rfl, ⟨rfl, rfl⟩, sends_bounded fresh expired⟩

/-- A send that stands in line for a slot is pending long after its exchange was dispatched. -/
theorem not_bounded_of_queueing : ¬ ∀ (s₀ s : Traffic) (l : List Transition) (c : Sending)
    (t : Transition), s₀.Fresh → Trace Unhurried s₀ l s → .sending c ∈ s.jobs →
    (s.bus.exchange c.exchange).synchronous = true → t ∈ l → t.Submitted c.exchange →
    s.bus.now ≤ t.before.bus.now + s.bus.settings.syncTimeout := by
  intro claimed
  have fresh := (blank_stocked true).toFresh
  have idle : Trace Unhurried (stocked true) [] (stocked true) := .start
  have connected := idle.step (.ask (r := .connectQueue stock.component) trivial) fun _ => nofun
  have sent := connected.step (.ask (r := .send 0) Nat.two_pos) fun _ => nofun
  have tracked := sent.step (@Step.take _ (.tracker 0 false) [] [] rfl) fun _ => nofun
  have lined := tracked.step (.ask (r := .send 1) Nat.one_lt_two) fun _ => nofun
  have followed := lined.step (@Step.take _ (.tracker 1 false) [] [] rfl) fun _ => nofun
  have expired := followed.step (@Step.pass _ 1000 (Nat.zero_le _)) fun t e => by
    cases e
    exact ⟨⟨rfl, by decide⟩, by decide⟩
  have timed_out := expired.step (@Step.resume _
    (.sending (.replying 0 1000 ⟨.active, .provider, 1⟩)) _
    (@List.perm_middle _ _ [_, _, _] [])) fun _ => nofun
  have ended := timed_out.step (@Step.resume _
    (.tracking (.watching 0 false ⟨.active, .provider, 1⟩)) _
    (@List.perm_middle _ _ [_, _] [])) fun _ => nofun
  have late := ended.step (@Step.pass _ 5000 (Nat.le_of_ble_eq_true rfl)) fun t e => by
    cases e
    exact ⟨⟨rfl, by decide⟩, by decide⟩
  obtain ⟨-, lines_up, -⟩ := lined.split (List.nil_append _).symm
  have submitted := lines_up.submitted_of_offered (tracked.course.orderly fresh.orderly)
    (.inl ⟨stock.component, 0, 1, List.mem_cons_self⟩) fun offered =>
      absurd offered.due_pos (by decide)
  have left := claimed _ _ _ (.queueing 1 stock.component 0 1) _ fresh late
    (.tail _ List.mem_cons_self) rfl
    (.tail _ (.tail _ (.tail _ (.tail _ (.tail _ List.mem_cons_self))))) submitted
  exact absurd left (by decide)

end Traffic
end ServiceBus
