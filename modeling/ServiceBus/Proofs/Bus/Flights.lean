import ServiceBus.Proofs.Bus.Courses
import ServiceBus.Proofs.Bus.Processed

/-!
# The table of flights

A bus keeps a table of what it has delivered under the ids of the exchanges, enters an exchange when
it begins to deliver it, and strikes it out when its tracker finds that it has ended. As long as no
two exchanges that the bus has sent have one id, the table is what it should be: of the exchanges
that have not ended it has those whose delivery has begun and no others, and whoever is to fail what
is in flight finds all of it there (`accounted`).

`Books` says what a step does to the table, and `Tallied` how one exchange stands in it. Exchanges
are not independent here: the tracker of one strikes out whatever is under its id, and it is `Apart`
that makes this its own entry (`Tallied.flying_step`). So a step is taken for all of them at once.
-/

namespace ServiceBus
open Bus

theorem Bus.Dispatched.active {b : Bus} {x : Nat} (h : b.Dispatched x)
    (not_reached : b.reached x .completion = false) : (b.exchange x).status = .active := by
  refine Decidable.byContradiction fun ended => ?_
  exact Bool.false_ne_true (not_reached.symm.trans (h.sent.isComplete_iff.2 ended))

/-! ### Who is followed -/

/-- A tracker of `x` is to set out or at work. -/
def Traffic.Followed (s : Traffic) (x : Nat) : Prop :=
  (∃ p, .tracker x p ∈ s.bus.trackers) ∨ ∃ u, .tracking u ∈ s.jobs ∧ u.exchange = x

namespace Bus
variable {b b' : Bus} {x : Nat} {come jobs : List Job}

theorem Rests.trackers_eq (h : Rests b b') : b'.trackers = b.trackers :=
  congrArg (List.filter Launch.isTracker) h.duties_eq

theorem Lands.trackers_eq (h : Lands b x b' come) : b'.trackers = b.trackers := by
  cases h with
  | launches rests =>
    rw [rests.trackers_eq]
    simp [trackers, duties, launch, Launch.isTracker]
  | enters _ _ rests | linesUp rests | refused rests => exact rests.trackers_eq

theorem Lands.not_tracking (h : Lands b x b' come) (u : Tracking) : .tracking u ∉ come := by
  cases h with
  | launches _ idle | enters _ _ _ _ idle =>
    intro hu
    cases idle _ hu
  | linesUp | refused => simp

theorem Pursues.over_of_mem {y : Nat} {a : Access} (h : Pursues b jobs y b' come)
    (hj : .tracking (.removing x a) ∈ come) : b.Over jobs x := by
  cases h with
  | on calls exchange through =>
    obtain rfl := Job.tracking.inj (List.mem_singleton.1 hj)
    cases exchange
    exact through a rfl
  | off => cases hj

end Bus

namespace Traffic
variable {s s' : Traffic} {d : Deed} {b : Bus} {others : List Job} {x : Nat} {u : Tracking}

theorem Submits.perm_tracking {t : Endpoint} {dl : Delivery} {r : Turn Access StoreAnswer}
    (h : s.Submits x t dl d b r others) : .tracking u ∈ others ↔ .tracking u ∈ s.jobs := by
  cases h with
  | spared | begun => exact Iff.rfl
  | resumed job => simp [job.mem_iff]

end Traffic

/-! ### Bookings -/

namespace Transition
variable {t : Transition} {x : Nat}

/-- What one transition does to the table, and to those who are followed. -/
inductive Books (t : Transition) : Prop
  | keeps (inFlight_eq : t.after.bus.inFlight = t.before.bus.inFlight)
    (followed : ∀ x, t.after.Followed x ↔ t.before.Followed x)
  | enters {y : Nat} {target : Endpoint} {dl : Delivery} {b : Bus} {v : Option Json}
    {come others : List Job}
    (submits : t.before.Submits y target dl t.deed b (.ended (.ok v)) others)
    (lands : Lands (b.track y) y t.after.bus come) (jobs : t.after.jobs = come ++ others)
    (followed : ∀ x, t.after.Followed x ↔ x = y ∨ t.before.Followed x)
  | strikes {y : Nat} (tracked : t.before.Followed y) (through : t.before.bus.Over t.before.jobs y)
    (inFlight_eq : t.after.bus.inFlight = t.before.bus.inFlight.erase (t.before.bus.exchange y).id)
    (left : ∀ x, t.after.Followed x → t.before.Followed x)
    (others : ∀ x, x ≠ y → t.before.Followed x → t.after.Followed x)

end Transition

namespace Traffic
variable {s s' : Traffic} {d : Deed} {b : Bus} {come others : List Job} {x y : Nat}

theorem followed_congr (trackers : s'.bus.trackers = s.bus.trackers)
    (jobs : ∀ u, .tracking u ∈ s'.jobs ↔ .tracking u ∈ s.jobs) (x : Nat) :
    s'.Followed x ↔ s.Followed x := by
  simp only [Followed, trackers, jobs]

theorem followed_tracker {p : Bool}
    (trackers : s'.bus.trackers.Perm (.tracker y p :: s.bus.trackers))
    (jobs : ∀ u, .tracking u ∈ s'.jobs ↔ .tracking u ∈ s.jobs) (x : Nat) :
    s'.Followed x ↔ x = y ∨ s.Followed x := by
  simp only [Followed, trackers.mem_iff, jobs, List.mem_cons, Launch.tracker.injEq]
  constructor
  · rintro (⟨q, ⟨rfl, -⟩ | hq⟩ | hu)
    · exact .inl rfl
    · exact .inr (.inl ⟨q, hq⟩)
    · exact .inr (.inr hu)
  · rintro (rfl | ⟨q, hq⟩ | hu)
    · exact .inl ⟨p, .inl ⟨rfl, rfl⟩⟩
    · exact .inl ⟨q, .inr hq⟩
    · exact .inr hu

theorem followed_tracking {u : Tracking} (trackers : s'.bus.trackers = s.bus.trackers)
    (job : s'.jobs.Perm (.tracking u :: s.jobs)) (x : Nat) :
    s'.Followed x ↔ x = u.exchange ∨ s.Followed x := by
  simp only [Followed, trackers, job.mem_iff, List.mem_cons, Job.tracking.injEq]
  constructor
  · rintro (hp | ⟨v, rfl | hv, rfl⟩)
    · exact .inr (.inl hp)
    · exact .inl rfl
    · exact .inr (.inr ⟨v, hv, rfl⟩)
  · rintro (rfl | hp | ⟨v, hv, rfl⟩)
    · exact .inr ⟨u, .inl rfl, rfl⟩
    · exact .inl hp
    · exact .inr ⟨v, .inr hv, rfl⟩

/-- A tracker's turn, when `r` is what there is beside it. -/
theorem books_of_pursues {r : Traffic} {log : List Deed}
    (followed : ∀ x, s.Followed x ↔ x = y ∨ r.Followed x)
    (inFlight_eq : r.bus.inFlight = s.bus.inFlight) (exchange_eq : r.bus.exchange y = s.bus.exchange y)
    (pursues : r.bus.Pursues s.jobs y b come) :
    Transition.Books ⟨s, d, ⟨b, come ++ r.jobs, log⟩⟩ := by
  cases pursues with
  | @on u b calls exchange =>
    refine .keeps (calls.inFlight_eq.trans inFlight_eq) fun x => ?_
    have after : Followed ⟨b, .tracking u :: r.jobs, log⟩ x ↔ x = u.exchange ∨ r.Followed x :=
      followed_tracking calls.trackers_eq (.refl _) x
    rw [exchange] at after
    exact after.trans (followed x).symm
  | @off b calls through =>
    have after (x : Nat) : Followed ⟨b.untrack y, r.jobs, log⟩ x ↔ r.Followed x :=
      @followed_congr r ⟨b.untrack y, r.jobs, log⟩ calls.trackers_eq (fun _ => Iff.rfl) x
    have through : s.bus.Over s.jobs y := by
      rwa [Over, exchange_eq] at through
    refine .strikes ((followed y).2 (.inl rfl)) through ?_ (fun x hx => ?_) fun x ne hx => ?_
    · show b.inFlight.erase (b.exchange y).id = _
      rw [calls.inFlight_eq, calls.exchange_eq, exchange_eq, inFlight_eq]
    · exact (followed x).2 (.inr ((after x).1 hx))
    · exact (after x).2 (((followed x).1 hx).resolve_left ne)

theorem Step.books (h : s.Step d s') (ordered : s.bus.Orderly s.jobs) :
    Transition.Books ⟨s, d, s'⟩ := by
  have passage := h.passage ordered
  obtain ⟨b, jobs, log⟩ := s'
  cases passage with
  | aside gone come rests _ job idle kept =>
    refine .keeps rests.inFlight_eq (followed_congr rests.trackers_eq fun u => ?_)
    have come_not : .tracking u ∉ come := fun hu => by cases idle _ hu
    simp [job.mem_iff, kept u, come_not]
  | waits submits =>
    exact .keeps submits.rests.inFlight_eq (followed_congr submits.rests.trackers_eq fun u => by
      simp [submits.perm_tracking])
  | refused submits rests =>
    have rests := submits.rests.trans rests
    exact .keeps rests.inFlight_eq (followed_congr rests.trackers_eq fun u => submits.perm_tracking)
  | @lands y target dl d b₁ _ v come others submits lands =>
    refine .enters submits lands rfl (followed_tracker (p := b₁.persists y) ?_ fun u => ?_)
    · show b.trackers.Perm _
      rw [lands.trackers_eq, trackers_track, submits.rests.trackers_eq]
      exact List.perm_append_singleton _ _
    · simp [lands.not_tracking u, submits.perm_tracking]
  | queues job lands =>
    exact .keeps lands.inFlight_eq (followed_congr lands.trackers_eq fun u => by
      simp [lands.not_tracking u, job.mem_iff])
  | begins launched =>
    refine .keeps rfl (followed_congr ?_ fun u => by simp)
    simp [trackers, duties, launched, Launch.isTracker]
  | @tracks y persisted before after b come launched pursues =>
    exact books_of_pursues (r := ⟨s.bus.leaving (before ++ after), s.jobs, []⟩)
      (followed_tracker (trackers_launched launched) fun _ => Iff.rfl) rfl rfl pursues
  | @follows u b come others job pursues =>
    exact books_of_pursues (r := ⟨s.bus, others, []⟩) (followed_tracking rfl job) rfl rfl pursues

theorem Step.over_of_removing {a : Access} (h : s.Step d s') (ordered : s.bus.Orderly s.jobs)
    (hj : .tracking (.removing x a) ∈ s'.jobs) : s.bus.Over s.jobs x := by
  have passage := h.passage ordered
  obtain ⟨b, jobs, log⟩ := s'
  -- the tracker has been at work before, or has come
  have old {come others : List Job} (hj : .tracking (.removing x a) ∈ come ++ others)
      (stayed : ∀ u, .tracking u ∈ others → .tracking u ∈ s.jobs)
      (new : .tracking (.removing x a) ∈ come → s.bus.Over s.jobs x) : s.bus.Over s.jobs x :=
    (List.mem_append.1 hj).elim new fun hj => .inr ⟨a, stayed _ hj⟩
  cases passage with
  | aside gone come _ _ job idle =>
    exact old hj (fun u hu => job.mem_iff.2 (List.mem_append_right _ hu))
      fun hj => by cases idle _ hj
  | waits submits =>
    exact @old [_] _ hj (fun u => submits.perm_tracking.1) fun hj => by simp at hj
  | refused submits => exact .inr ⟨a, submits.perm_tracking.1 hj⟩
  | lands submits lands =>
    exact old hj (fun u => submits.perm_tracking.1) fun hj => absurd hj (lands.not_tracking _)
  | queues job lands =>
    exact old hj (fun u hu => job.mem_iff.2 (.tail _ hu))
      fun hj => absurd hj (lands.not_tracking _)
  | begins => exact @old [_] _ hj (fun _ hu => hu) fun hj => by simp at hj
  | tracks launched pursues => exact old hj (fun _ hu => hu) pursues.over_of_mem
  | follows job pursues =>
    exact old hj (fun u hu => job.mem_iff.2 (.tail _ hu)) pursues.over_of_mem

end Traffic

/-! ### Sent and begun -/

namespace Transition
variable {t : Transition} {x : Nat}

/-- The bus takes on the delivery of `x`: a send takes its first hop. -/
structure Sends (t : Transition) (x : Nat) : Prop where
  deed : t.deed = .ask (.send x)
  unsent : (t.before.bus.exchange x).hops = 0
  sent : (t.after.bus.exchange x).hops ≠ 0

/-- The delivery of `x` begins or goes on: it is given away, or its sender stands in line for a
queue. -/
inductive Begins (t : Transition) (x : Nat) : Prop
  | gives (gives : t.Gives x)
  | linesUp {c : ComponentId} {q ticket : Nat}
    (job : .sending (.queueing x c q ticket) ∈ t.after.jobs)

theorem begins_of_lands {target : Endpoint} {dl : Delivery} {b : Bus} {v : Option Json}
    {come others : List Job} (submits : t.before.Submits x target dl t.deed b (.ended (.ok v)) others)
    (lands : Lands (b.track x) x t.after.bus come) (jobs : t.after.jobs = come ++ others)
    (active : (t.after.bus.exchange x).status = .active) : t.Begins x := by
  cases lands with
  | @launches run n awaited _ _ rests =>
    refine .gives (.launches ?_)
    rw [rests.runs_eq x, launch, List.countP_append, submits.runs_track]
    simp [Launch.runs]
  | @enters q p _ _ there put rests queues =>
    refine .gives (.puts (q := q) ?_)
    have before : (b.track x).queue q = t.before.bus.queue q := queue_congr submits.queues_eq q
    rw [Puts, Lands.items_enters there put queues, if_pos rfl, before]
  | linesUp => exact .linesUp (jobs ▸ List.mem_append_left _ (List.mem_singleton.2 rfl))
  | refused _ ended => exact absurd active ended

end Transition

namespace Traffic
variable {l : List Transition} {s s' s₀ : Traffic} {d : Deed} {b : Bus} {x y : Nat}
open Transition

/-- The bus has taken on the delivery of `x`. -/
def Sent (l : List Transition) (x : Nat) : Prop := ∃ t ∈ l, t.Sends x

/-- The delivery of `x` has begun. -/
def Begun (l : List Transition) (x : Nat) : Prop := ∃ t ∈ l, t.Begins x

/-- No two exchanges that have been sent have one id. -/
def Apart (l : List Transition) (b : Bus) : Prop :=
  ∀ x y, Sent l x → Sent l y → (b.exchange x).id = (b.exchange y).id → x = y

theorem lt_size_of_hops {b : Bus} (h : (b.exchange x).hops ≠ 0) : x < b.exchanges.size := by
  refine Nat.lt_of_not_le fun hx => h ?_
  rw [exchange, Array.getElem?_eq_none hx]
  rfl

theorem Sent.lt_size (h : Sent l x) (course : Course s₀ l s) : x < s.bus.exchanges.size := by
  induction course with
  | start =>
    obtain ⟨t, ht, -⟩ := h
    cases ht
  | step course step ih =>
    obtain ⟨t, ht, sends⟩ := h
    rcases List.mem_cons.1 ht with rfl | ht
    · exact lt_size_of_hops sends.sent
    · exact Nat.lt_of_lt_of_le (ih ⟨t, ht, sends⟩) step.evolves.size_le
  | elsewhere _ elsewhere ih => exact Nat.lt_of_lt_of_le (ih h) elsewhere.size_le

theorem Sent.later {t : Transition} (h : Sent l x) : Sent (t :: l) x := by
  obtain ⟨u, hu, sends⟩ := h
  exact ⟨u, .tail _ hu, sends⟩

theorem Begun.later {t : Transition} (h : Begun l x) : Begun (t :: l) x := by
  obtain ⟨u, hu, begins⟩ := h
  exact ⟨u, .tail _ hu, begins⟩

theorem Sent.id_eq {b' : Bus} (h : Sent l x) (course : Course s₀ l s) (he : Evolves s.bus b') :
    (b'.exchange x).id = (s.bus.exchange x).id :=
  (he.leads x (h.lt_size course)).onward.id_eq

theorem Apart.of_size (course : Course s₀ l s) (h : s.bus.exchanges.size ≤ 1) :
    Apart l s.bus := by
  intro x y hx hy _
  have lt_x := hx.lt_size course
  have lt_y := hy.lt_size course
  omega

theorem Apart.earlier {l' : List Transition} {b' : Bus} (h : Apart l' b') (course : Course s₀ l s)
    (hl : ∀ t ∈ l, t ∈ l') (he : Evolves s.bus b') : Apart l s.bus := by
  intro x y hx hy e
  have sent {z : Nat} : Sent l z → Sent l' z := fun ⟨t, ht, hz⟩ => ⟨t, hl t ht, hz⟩
  refine h x y (sent hx) (sent hy) ?_
  rw [hx.id_eq course he, hy.id_eq course he, e]

theorem Followed.dispatched (h : s.Followed x) (ordered : s.bus.Orderly s.jobs) :
    s.bus.Dispatched x := by
  obtain ⟨p, hp⟩ | ⟨u, hu, rfl⟩ := h
  · exact ordered x (.inr ⟨_, (List.mem_filter.1 hp).1, rfl⟩)
  · exact ordered u.exchange (.inl ⟨_, hu, rfl⟩)

theorem get?_inFlight_of_lands {target : Endpoint} {dl : Delivery} {v : Option Json}
    (submits : s.Submits y target dl d b (.ended (.ok v)) others)
    (lands : Lands (b.track y) y s'.bus come) (k : String) :
    s'.bus.inFlight.get? k =
      if k = (b.exchange y).id then some y else s.bus.inFlight.get? k := by
  have inFlight_eq : s'.bus.inFlight = b.inFlight.insert (b.exchange y).id y := lands.inFlight_eq
  rw [inFlight_eq, Table.get?_insert, submits.rests.inFlight_eq]

theorem Submits.sends {t : Endpoint} {dl : Delivery} {r : Turn Access StoreAnswer}
    {others : List Job} (h : s.Submits x t dl d b r others)
    (hops : (b.exchange x).hops ≤ (s'.bus.exchange x).hops) :
    Sends ⟨s, d, s'⟩ x ∨ 0 < s.due x := by
  cases h with
  | spared moved =>
    obtain ⟨unsent, sent⟩ := moved.takes_hop
    exact .inl ⟨rfl, unsent, show (s'.bus.exchange x).hops ≠ 0 by omega⟩
  | begun moved _ call =>
    obtain ⟨unsent, sent⟩ := moved.takes_hop
    rw [(Calls.of_turn call (.persist _ x)).exchange_eq x] at hops
    exact .inl ⟨rfl, unsent, show (s'.bus.exchange x).hops ≠ 0 by omega⟩
  | resumed job =>
    exact .inr (due_pos_of_carries (job.mem_iff.2 List.mem_cons_self) (beq_self_eq_true x))

theorem Step.due_cases (h : s.Step d s') (ordered : s.bus.Orderly s.jobs) (due : 0 < s'.due x) :
    Sends ⟨s, d, s'⟩ x ∨ 0 < s.due x := by
  have leg := h.leg ordered x
  cases leg with
  | unmoved h => exact .inr (Nat.lt_of_lt_of_le due h.due_le)
  | waits submits => exact submits.sends (Nat.le_refl _)
  | refused submits rests => exact submits.sends (rests.hops_le x)
  | lands submits lands => exact submits.sends (lands.toEvolves.hops_le x)
  | @queues c q ticket _ _ _ job =>
    exact .inr (Offered.due_pos (.inl ⟨c, q, ticket, job.mem_iff.2 List.mem_cons_self⟩))
  | begins _ launched => exact .inr (Offered.due_pos (.inr (runs_pos launched)))

theorem Step.followed_cases (h : s.Step d s') (ordered : s.bus.Orderly s.jobs)
    (followed : s'.Followed x) : Sends ⟨s, d, s'⟩ x ∨ 0 < s.due x ∨ s.Followed x := by
  have books := h.books ordered
  cases books with
  | keeps _ same => exact .inr (.inr ((same x).1 followed))
  | enters submits lands _ new =>
    obtain rfl | old := (new x).1 followed
    · exact (submits.sends (lands.toEvolves.hops_le x)).imp_right .inl
    · exact .inr (.inr old)
  | strikes _ _ _ left => exact .inr (.inr (left x followed))

theorem Step.begins_cases (h : s.Step d s') (ordered : s.bus.Orderly s.jobs)
    (begins : Begins ⟨s, d, s'⟩ x) :
    s.Offered x ∨ ((Sends ⟨s, d, s'⟩ x ∨ 0 < s.due x) ∧ s'.bus.Flying x) := by
  have new : Gives ⟨s, d, s'⟩ x ∨ s'.Offered x := by
    cases begins with
    | gives gives => exact .inl gives
    | linesUp job => exact .inr (.inl ⟨_, _, _, job⟩)
  obtain offered | ⟨target, dl, b, v, come, others, submits, lands⟩ :=
    (h.leg ordered x).offered new
  · exact .inl offered
  · refine .inr ⟨submits.sends (lands.toEvolves.hops_le x), (b.exchange x).id, ?_⟩
    rw [get?_inFlight_of_lands submits lands, if_pos rfl]

/-! ### Accounts -/

/-- How `x` stands in the table. -/
structure Tallied (l : List Transition) (s : Traffic) (x : Nat) : Prop where
  keyed : ∀ k, s.bus.inFlight.get? k = some x → k = (s.bus.exchange x).id ∧ s.Followed x
  sent : 0 < s.due x ∨ s.Followed x → Sent l x
  offered : s.Offered x → Begun l x
  begun : Begun l x → Sent l x
  through : ∀ a, .tracking (.removing x a) ∈ s.jobs → (s.bus.exchange x).status ≠ .active
  flying : (s.bus.exchange x).status = .active → (s.bus.Flying x ↔ Begun l x)

theorem Fresh.tallied (h : s.Fresh) (x : Nat) : Tallied [] s x := by
  have not_followed : ¬ s.Followed x := by
    simp [Followed, trackers, duties, h.no_launches, h.no_jobs]
  have not_flying (k : String) : s.bus.inFlight.get? k ≠ some x := by
    rw [h.no_flights]
    exact (Option.some_ne_none x).symm
  have not_due : ¬ 0 < s.due x := by simp [due, h.no_jobs, h.no_launches]
  refine ⟨fun k hk => absurd hk (not_flying k), fun serves => ?_, fun offered => ?_, by simp [Begun],
    by simp [h.no_jobs], fun _ => ?_⟩
  · exact (serves.elim not_due not_followed).elim
  · exact absurd offered.due_pos not_due
  · simp [Flying, not_flying, Begun]

namespace Tallied

theorem over_step (h : Tallied l s x) (ordered : s.bus.Orderly s.jobs) (step : s.Step d s')
    {a : Access} (hj : .tracking (.removing x a) ∈ s'.jobs) :
    (s'.bus.exchange x).status ≠ .active := by
  intro active
  have before := step.evolves.active_before active
  obtain ended | ⟨a, hj⟩ := step.over_of_removing ordered hj
  · exact ended before
  · exact h.through a hj before

theorem keyed_step (h : ∀ y, Tallied l s y) (ordered : s.bus.Orderly s.jobs) (step : s.Step d s')
    {k : String} (hk : s'.bus.inFlight.get? k = some x) :
    k = (s'.bus.exchange x).id ∧ s'.Followed x := by
  have old (hk : s.bus.inFlight.get? k = some x) : k = (s'.bus.exchange x).id ∧ s.Followed x := by
    obtain ⟨e, followed⟩ := (h x).keyed k hk
    exact ⟨e.trans (step.evolves.leads x
      (followed.dispatched ordered).lt_size).onward.id_eq.symm, followed⟩
  have books := step.books ordered
  cases books with
  | keeps same followed => exact (old (same ▸ hk)).imp_right (followed x).2
  | @enters y target dl b v come others submits lands jobs followed =>
    rw [get?_inFlight_of_lands submits lands] at hk
    split at hk
    · next e =>
      obtain rfl := Option.some.inj hk
      have evolves : Evolves b s'.bus := lands.toEvolves.from_eq rfl
      have id_y := (evolves.leads y (submits.dispatched ordered).lt_size).onward.id_eq
      exact ⟨e.trans id_y.symm, (followed y).2 (.inl rfl)⟩
    · exact (old hk).imp_right fun hf => (followed x).2 (.inr hf)
  | @strikes y tracked through inFlight_eq left others =>
    have inFlight_eq : s'.bus.inFlight = s.bus.inFlight.erase (s.bus.exchange y).id := inFlight_eq
    rw [inFlight_eq] at hk
    have before := flight_of_erase hk
    refine (old before).imp_right (others x ?_)
    rintro rfl
    rw [((h x).keyed k before).1, Table.get?_erase_self] at hk
    cases hk

theorem flying_cases (step : s.Step d s') (ordered : s.bus.Orderly s.jobs)
    (active : (s'.bus.exchange x).status = .active) (flying : s'.bus.Flying x) :
    s.bus.Flying x ∨ Begins ⟨s, d, s'⟩ x := by
  obtain ⟨k, hk⟩ := flying
  have books := step.books ordered
  cases books with
  | keeps same => exact .inl ⟨k, same ▸ hk⟩
  | @enters y target dl b v come others submits lands jobs =>
    rw [get?_inFlight_of_lands submits lands] at hk
    split at hk
    · obtain rfl := Option.some.inj hk
      exact .inr (begins_of_lands submits lands jobs active)
    · exact .inl ⟨k, hk⟩
  | strikes _ _ inFlight_eq =>
    have inFlight_eq : s'.bus.inFlight = _ := inFlight_eq
    rw [inFlight_eq] at hk
    exact .inl ⟨k, flight_of_erase hk⟩

/-- `x` is struck out only when it has ended: nobody else is struck out under its id. -/
theorem flying_step (h : ∀ y, Tallied l s y) (ordered : s.bus.Orderly s.jobs)
    (course : Course s₀ l s) (step : s.Step d s') (apart : Apart (⟨s, d, s'⟩ :: l) s'.bus)
    (active : (s'.bus.exchange x).status = .active) (flying : s.bus.Flying x) :
    s'.bus.Flying x := by
  obtain ⟨k, hk⟩ := flying
  obtain ⟨rfl, followed⟩ := (h x).keyed k hk
  have sent := (h x).sent (.inr followed)
  have id_x := sent.id_eq course step.evolves
  have books := step.books ordered
  cases books with
  | keeps same => exact ⟨_, same ▸ hk⟩
  | @enters y target dl b v come others submits lands =>
    refine ⟨(s.bus.exchange x).id, ?_⟩
    rw [get?_inFlight_of_lands submits lands]
    split
    · next e =>
      have sent_y : Sent (⟨s, d, s'⟩ :: l) y := by
        obtain sends | due := submits.sends (lands.toEvolves.hops_le y)
        · exact ⟨_, List.mem_cons_self, sends⟩
        · exact ((h y).sent (.inl due)).later
      have evolves : Evolves b s'.bus := lands.toEvolves.from_eq rfl
      have id_y := (evolves.leads y (submits.dispatched ordered).lt_size).onward.id_eq
      exact congrArg some (apart x y sent.later sent_y (by rw [id_x, e, id_y])).symm
    · exact hk
  | @strikes y tracked through inFlight_eq =>
    have sent_y := (h y).sent (.inr tracked)
    refine ⟨(s.bus.exchange x).id, ?_⟩
    have inFlight_eq : s'.bus.inFlight = s.bus.inFlight.erase (s.bus.exchange y).id := inFlight_eq
    rw [inFlight_eq, Table.get?_erase, if_neg fun e => ?_]
    · exact hk
    have id_y := sent_y.id_eq course step.evolves
    obtain rfl : x = y := apart x y sent.later sent_y.later (by rw [id_x, id_y, e])
    have before := step.evolves.active_before active
    obtain ended | ⟨a, hj⟩ := through
    · exact ended before
    · exact (h x).through a hj before

theorem step (h : ∀ y, Tallied l s y) (ordered : s.bus.Orderly s.jobs) (course : Course s₀ l s)
    (step : s.Step d s') (apart : Apart (⟨s, d, s'⟩ :: l) s'.bus) (x : Nat) :
    Tallied (⟨s, d, s'⟩ :: l) s' x := by
  have sent_cases : Sends ⟨s, d, s'⟩ x ∨ 0 < s.due x → Sent (⟨s, d, s'⟩ :: l) x
    | .inl sends => ⟨_, List.mem_cons_self, sends⟩
    | .inr due => ((h x).sent (.inl due)).later
  refine ⟨fun k hk => ?_, ?_, ?_, ?_, fun a hj => (h x).over_step ordered step hj, fun active => ?_⟩
  · exact keyed_step h ordered step hk
  · rintro (due | followed)
    · exact sent_cases (step.due_cases ordered due)
    · obtain sends | due | followed := step.followed_cases ordered followed
      · exact sent_cases (.inl sends)
      · exact sent_cases (.inr due)
      · exact ((h x).sent (.inr followed)).later
  · rintro (⟨c, q, ticket, hj⟩ | launched)
    · exact ⟨_, List.mem_cons_self, .linesUp hj⟩
    · by_cases offered : s.Offered x
      · exact ((h x).offered offered).later
      · have none : s.bus.launched.countP (·.runs x) = 0 :=
          Nat.eq_zero_of_not_pos fun more => offered (.inr more)
        exact ⟨_, List.mem_cons_self, .gives (.launches (none ▸ launched))⟩
  · rintro ⟨t, ht, begins⟩
    rcases List.mem_cons.1 ht with rfl | ht
    · obtain offered | ⟨sent, -⟩ := step.begins_cases ordered begins
      · exact sent_cases (.inr offered.due_pos)
      · exact sent_cases sent
    · exact ((h x).begun ⟨t, ht, begins⟩).later
  · have before := step.evolves.active_before active
    -- whoever is active now was so before, and is struck out by nobody
    have kept (begun : Begun l x) : s'.bus.Flying x :=
      flying_step h ordered course step apart active (((h x).flying before).2 begun)
    constructor
    · intro flying
      obtain old | begins := flying_cases step ordered active flying
      · exact (((h x).flying before).1 old).later
      · exact ⟨_, List.mem_cons_self, begins⟩
    · rintro ⟨t, ht, begins⟩
      rcases List.mem_cons.1 ht with rfl | ht
      · obtain offered | ⟨-, flying⟩ := step.begins_cases ordered begins
        · exact kept ((h x).offered offered)
        · exact flying
      · exact kept ⟨t, ht, begins⟩

theorem elsewhere (h : Tallied l s x) (ordered : s.bus.Orderly s.jobs) (e : s.bus.Elsewhere b) :
    Tallied l { s with bus := b } x := by
  have followed : Followed { s with bus := b } x ↔ s.Followed x := by
    refine @followed_congr s { s with bus := b } ?_ (fun _ => Iff.rfl) x
    show (b.launched.filter _).filter _ = _
    rw [e.launched_eq]
    rfl
  have offered : Offered { s with bus := b } x ↔ s.Offered x := by
    simp only [Offered, e.launched_eq]
  have due := due_elsewhere s e x
  have flying : b.Flying x ↔ s.bus.Flying x := by
    simp only [Flying, e.inFlight_eq]
  refine ⟨fun k hk => ?_, fun serves => h.sent ?_, fun ho => h.offered (offered.1 ho), h.begun,
    fun a hj active => h.through a hj (e.toEvolves.active_before active),
    fun active => flying.trans (h.flying (e.toEvolves.active_before active))⟩
  · obtain ⟨id_eq, hf⟩ := h.keyed k (e.inFlight_eq ▸ hk)
    have lt_size := (hf.dispatched ordered).lt_size
    exact ⟨id_eq.trans (e.leads x lt_size).onward.id_eq.symm, followed.2 hf⟩
  · rwa [due, followed] at serves

end Tallied

theorem tallied (fresh : s₀.Fresh) (course : Course s₀ l s) (apart : Apart l s.bus) (x : Nat) :
    Tallied l s x := by
  -- the ids of those sent so far are apart when those of all that are ever sent are
  induction course generalizing x with
  | start => exact fresh.tallied x
  | step course step ih =>
    have before := ih (apart.earlier course (fun _ ht => .tail _ ht) step.evolves)
    exact Tallied.step before (course.orderly fresh.orderly) course step apart x
  | elsewhere course elsewhere ih =>
    have before := ih (apart.earlier course (fun _ ht => ht) elsewhere.toEvolves)
    exact (before x).elsewhere (course.orderly fresh.orderly) elsewhere

theorem Followed.active (h : s.Followed x) (ordered : s.bus.Orderly s.jobs) (quiet : s.Quiet)
    (removed : ∀ y a, .tracking (.removing y a) ∉ s.jobs) : (s.bus.exchange x).status = .active := by
  have dispatched := h.dispatched ordered
  obtain ⟨p, hp⟩ | ⟨u, hu, rfl⟩ := h
  · simp [trackers, duties, quiet.no_launches] at hp
  · cases u with
    | removing y a => exact absurd hu (removed y a)
    | watching y p seen =>
      have waits : s.bus.holds (.exchange y .completion seen) = false :=
        quiet.waiting _ hu _ (List.mem_singleton.2 rfl)
      have not_reached : s.bus.reached y .completion = false := (Bool.or_eq_false_iff.1 waits).1
      exact dispatched.active not_reached

end Traffic

/-! ### Failing what is in flight -/

namespace Bus

theorem failAll_counts (cause : String) (xs : List Nat) (b : Bus) (once : xs.Nodup)
    (there : ∀ x ∈ xs, x < b.exchanges.size) :
    (b.failAll cause xs).2 = xs.countP (fun x => decide ((b.exchange x).status = .active)) ∧
      ∀ x ∈ xs, ((b.failAll cause xs).1.exchange x).status ≠ .active := by
  induction xs generalizing b with
  | nil => simp [failAll]
  | cons x xs ih =>
    obtain ⟨not_mem, once⟩ := List.nodup_cons.1 once
    have hx := there x List.mem_cons_self
    have evolves := Evolves.failQuietly b x cause
    obtain ⟨count, ended⟩ := ih (b.failQuietly x cause) once fun y hy =>
      Nat.lt_of_lt_of_le (there y (.tail _ hy)) evolves.size_le
    -- the rest is as it was
    have rest : xs.countP (fun y => decide (((b.failQuietly x cause).exchange y).status = .active)) =
        xs.countP (fun y => decide ((b.exchange y).status = .active)) := by
      refine List.countP_congr fun y hy => ?_
      rw [failQuietly, exchange_change b hx, if_neg]
      rintro rfl
      exact not_mem hy
    have last := (Stirs.failAll cause xs (b.failQuietly x cause)).toEvolves
    have first : (((b.failQuietly x cause).failAll cause xs).1.exchange x).status ≠ .active :=
      fun active => terminal_failQuietly hx cause (last.active_before active)
    rw [rest] at count
    obtain ⟨active, change⟩ | ⟨ended_before, e, change⟩ := change_fail_cases b x cause
    · have total : b.failAll cause (x :: xs) = (((b.failQuietly x cause).failAll cause xs).1,
          ((b.failQuietly x cause).failAll cause xs).2 + 1) := by
        simp only [failAll, change]
        rfl
      rw [total, List.countP_cons_of_pos (by simpa using active), count]
      exact ⟨rfl, List.forall_mem_cons.2 ⟨first, ended⟩⟩
    · have total : b.failAll cause (x :: xs) = (b.failQuietly x cause).failAll cause xs := by
        simp only [failAll, change]
        rfl
      rw [total, List.countP_cons_of_neg (by simpa using ended_before)]
      exact ⟨count, List.forall_mem_cons.2 ⟨first, ended⟩⟩

end Bus

theorem Table.nodup_values {κ α : Type} [DecidableEq κ] (t : Table κ α)
    (h : ∀ k k' a, t.get? k = some a → t.get? k' = some a → k = k') : t.values.Nodup := by
  refine List.pairwise_map.2 ((List.pairwise_map.1 t.distinct).imp_of_mem ?_)
  rintro ⟨k, a⟩ ⟨k', a'⟩ hk hk' ne rfl
  exact ne (h k k' a (t.get?_eq_some_iff.2 hk) (t.get?_eq_some_iff.2 hk'))

/-! ### The accounts -/

namespace Traffic
variable {l : List Transition} {s s₀ : Traffic} {x : Nat}

/-- The table of flights is what it should be. -/
structure Accounted (l : List Transition) (s : Traffic) : Prop where
  /-- Whoever has been given away, or stands in line, and has not ended is in flight. -/
  begun : ∀ x, Begun l x → (s.bus.exchange x).status = .active → s.bus.Flying x
  /-- Only what this bus has sent is in flight. -/
  sent : ∀ x, s.bus.Flying x → Sent l x
  /-- When nobody can go on and no removal is under way, nothing else is in flight. -/
  settled : s.Quiet → (∀ x a, .tracking (.removing x a) ∉ s.jobs) → ∀ x,
    s.bus.Flying x ↔ Begun l x ∧ (s.bus.exchange x).status = .active
  /-- Each flight is in the table once; failing what is in flight counts those that were active, and
  leaves none of them so. -/
  failed : s.bus.inFlight.values.Nodup ∧ ∀ cause, (s.bus.failInFlight cause).2 =
      s.bus.inFlight.values.countP (fun x => decide ((s.bus.exchange x).status = .active)) ∧
    ∀ x, s.bus.Flying x → ((s.bus.failInFlight cause).1.exchange x).status ≠ .active

/-- As long as no two exchanges that have been sent have one id, the bus keeps account of what it
has delivered. -/
theorem accounted (fresh : s₀.Fresh) (course : Course s₀ l s) (apart : Apart l s.bus) :
    Accounted l s := by
  have tallied := tallied fresh course apart
  have ordered := course.orderly fresh.orderly
  have once : s.bus.inFlight.values.Nodup := Table.nodup_values _ fun k k' x hk hk' =>
    ((tallied x).keyed k hk).1.trans ((tallied x).keyed k' hk').1.symm
  have followed {x : Nat} : s.bus.Flying x → s.Followed x := fun ⟨k, hk⟩ => ((tallied x).keyed k hk).2
  refine ⟨fun x begun active => ((tallied x).flying active).2 begun,
    fun x flying => (tallied x).sent (.inr (followed flying)), fun quiet removed x => ?_, once,
    fun cause => ?_⟩
  · constructor
    · intro flying
      have active := (followed flying).active ordered quiet removed
      exact ⟨((tallied x).flying active).1 flying, active⟩
    · exact fun ⟨begun, active⟩ => ((tallied x).flying active).2 begun
  · obtain ⟨count, ended⟩ := failAll_counts cause s.bus.inFlight.values s.bus once fun x hx =>
      ((followed ((Table.mem_values_iff _).1 hx)).dispatched ordered).lt_size
    exact ⟨count, fun x flying => ended x ((Table.mem_values_iff _).2 flying)⟩

theorem accounted_served : ∃ l s, served.Fresh ∧ Course served l s ∧ Apart l s.bus ∧ s.Quiet ∧
    s.bus.Flying 0 ∧ Accounted l s := by
  have fresh : served.Fresh := ⟨rfl, rfl, rfl, rfl⟩
  have idle : Course served [] served := .start
  have sent := idle.step (.ask (r := .send 0) Nat.one_pos)
  have tracked := sent.step (@Step.take _ (.tracker 0 false) [] [.processor 1 0 0 true] rfl)
  have begun := tracked.step (@Step.take _ (.processor 1 0 0 true) [] [] rfl)
  have apart := Apart.of_size begun (Nat.le_refl 1)
  exact ⟨_, _, fresh, begun, apart, ⟨rfl, by decide⟩, ⟨"", rfl⟩, accounted fresh begun apart⟩

end Traffic
end ServiceBus
