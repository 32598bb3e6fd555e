import ServiceBus.Proofs.Bus.Passages
import ServiceBus.Proofs.Bus.Recorded

/-!
# Courses

A `Course` is what happens on one bus in the order in which it happens, as a list of `Transition`s,
newest first. Between them things happen elsewhere: exchanges go on, endpoints come and go, and
stores begin to fail or are written to by others. `Leg` says what a transition does for the delivery
of one exchange, so what is known of deliveries is shown of one exchange at a time.
-/

namespace ServiceBus

/-! ### Transitions -/

structure Transition where
  before : Traffic
  deed : Deed
  after : Traffic

/-- Whether the job has `x` yet to deliver. -/
def Job.carries (x : Nat) : Job → Bool
  | .sending (.persisting y _ _ _) | .sending (.queueing y _ _ _) => y == x
  | _ => false

def Launch.runs (x : Nat) : Launch → Bool
  | .processor _ _ y _ => y == x
  | _ => false

def Deed.begins (x : Nat) : Deed → Bool
  | .take l => l.runs x
  | _ => false

/-- `x` is on offer: its sender is in line for a queue, or a processor has been launched on it. -/
def Traffic.Offered (s : Traffic) (x : Nat) : Prop :=
  (∃ c q ticket, .sending (.queueing x c q ticket) ∈ s.jobs) ∨
    0 < s.bus.launched.countP (·.runs x)

namespace Transition
variable {t : Transition} {x : Nat}

def Puts (t : Transition) (x q : Nat) : Prop :=
  (t.after.bus.queue q).items = (t.before.bus.queue q).items ++ [x]

instance : Decidable (t.Puts x q) := inferInstanceAs (Decidable (_ = _))

/-- `x` is given away: a processor is launched on it or begins, or it is put into a queue. -/
inductive Gives (t : Transition) (x : Nat) : Prop
  | launches (more : t.before.bus.launched.countP (·.runs x) <
      t.after.bus.launched.countP (·.runs x))
  | begins (begins : t.deed.begins x = true)
  | puts {q : Nat} (puts : t.Puts x q)

/-- What one transition does for the delivery of `x` when it does nothing for it. -/
structure Unmoved (x : Nat) (t : Transition) : Prop where
  carried : ∀ j ∈ t.after.jobs, j.carries x = true → j ∈ t.before.jobs
  carried_le : t.after.jobs.countP (·.carries x) ≤ t.before.jobs.countP (·.carries x)
  runs_eq : t.after.bus.launched.countP (·.runs x) = t.before.bus.launched.countP (·.runs x)
  not_begins : t.deed.begins x = false
  not_puts : ∀ q, ¬ t.Puts x q
  flights : ∀ k, t.after.bus.inFlight.get? k = some x → t.before.bus.inFlight.get? k = some x

open Bus in
/-- What one transition does for the delivery of `x`. -/
inductive Leg (x : Nat) (t : Transition) : Prop
  | unmoved (unmoved : t.Unmoved x)
  | waits {target : Endpoint} {dl : Delivery} {a : Access} {others : List Job}
    (submits : t.before.Submits x target dl t.deed t.after.bus (.waiting a) others)
    (jobs : t.after.jobs = .sending (.persisting x target dl a) :: others)
  | refused {target : Endpoint} {dl : Delivery} {b : Bus} {e : StoreError}
    (submits : t.before.Submits x target dl t.deed b (.ended (.error e)) t.after.jobs)
    (rests : Rests b t.after.bus) (ended : (t.after.bus.exchange x).status ≠ .active)
  | lands {target : Endpoint} {dl : Delivery} {b : Bus} {v : Option Json} {come others : List Job}
    (submits : t.before.Submits x target dl t.deed b (.ended (.ok v)) others)
    (lands : Lands (b.track x) x t.after.bus come) (jobs : t.after.jobs = come ++ others)
  | queues {c : ComponentId} {q ticket : Nat} {come others : List Job}
    (deed : t.deed = .resume (.sending (.queueing x c q ticket)))
    (job : t.before.jobs.Perm (.sending (.queueing x c q ticket) :: others))
    (lands : Lands t.before.bus x t.after.bus come) (jobs : t.after.jobs = come ++ others)
  | begins {run n : Nat} {awaited : Bool} {before after : List Launch}
    (deed : t.deed = .take (.processor run n x awaited))
    (launched : t.before.bus.launched = before ++ .processor run n x awaited :: after)
    (bus : t.after.bus = t.before.bus.leaving (before ++ after))
    (jobs : t.after.jobs = .processing run n x awaited :: t.before.jobs)

end Transition

theorem Job.not_carries {j : Job} (h : j.isBusy = false) (x : Nat) : j.carries x = false := by
  match j, h with
  | .sending (.processing ..), _ | .sending (.replying ..), _ | .sending (.responding ..), _
  | .watching _, _ | .accepting _, _ | .retrieving _, _ | .draining _, _ | .shuttingDown _, _
  | .closing _, _ | .processing .., _ => rfl

namespace Bus
variable {b b' : Bus} {x y : Nat} {come jobs : List Job}

theorem countP_runs (b : Bus) (x : Nat) :
    b.launched.countP (·.runs x) = b.duties.countP (·.runs x) := by
  rw [duties, List.countP_filter]
  refine List.countP_congr fun l _ => ?_
  cases l <;> simp [Launch.runs, Launch.isDuty]

theorem runs_pos {run n : Nat} {awaited : Bool} {before after : List Launch}
    (launched : b.launched = before ++ .processor run n x awaited :: after) :
    0 < b.launched.countP (·.runs x) :=
  List.countP_pos_iff.2 ⟨_, launched ▸ List.mem_append_right _ List.mem_cons_self,
    by simp [Launch.runs]⟩

theorem Rests.runs_eq (h : Rests b b') (x : Nat) :
    b'.launched.countP (·.runs x) = b.launched.countP (·.runs x) := by
  rw [countP_runs, countP_runs, h.duties_eq]

theorem Takes.not_puts (h : Takes b b') (x q : Nat) :
    (b'.queue q).items ≠ (b.queue q).items ++ [x] := by
  intro e
  have le := (h q).length_le
  rw [e, List.length_append, List.length_singleton] at le
  omega

namespace Lands

theorem toEvolves (h : Lands b x b' come) : Evolves b b' := by
  cases h with
  | launches rests | enters _ _ rests => exact rests.toEvolves.from_eq rfl
  | linesUp rests | refused rests => exact rests.toEvolves

theorem settings_eq (h : Lands b x b' come) : b'.settings = b.settings := by
  cases h with
  | launches rests | enters _ _ rests | linesUp rests | refused rests => exact rests.settings_eq

theorem inFlight_eq (h : Lands b x b' come) : b'.inFlight = b.inFlight := by
  cases h with
  | launches rests | enters _ _ rests | linesUp rests | refused rests => exact rests.inFlight_eq

theorem not_carries (h : Lands b x b' come) (ne : x ≠ y) : ∀ j ∈ come, j.carries y = false := by
  cases h with
  | launches _ idle | enters _ _ _ _ idle => exact fun j hj => Job.not_carries (idle j hj) y
  | linesUp => simpa [Job.carries] using ne
  | refused => simp

theorem runs_eq (h : Lands b x b' come) (ne : x ≠ y) :
    b'.launched.countP (·.runs y) = b.launched.countP (·.runs y) := by
  cases h with
  | launches rests =>
    rw [rests.runs_eq, launch, List.countP_append]
    simp [Launch.runs, ne]
  | enters _ _ rests | linesUp rests | refused rests => exact rests.runs_eq y

theorem items_enters {q : Nat} {p : PullQueue} (there : q < b.queues.length)
    (put : p.items = (b.queue q).items ++ [x]) (queues : b'.queues = (b.setQueue q p).queues)
    (r : Nat) : (b'.queue r).items =
      if r = q then (b.queue r).items ++ [x] else (b.queue r).items := by
  rw [queue_congr queues, queue_setQueue]
  by_cases hr : r = q
  · rw [if_pos ⟨hr, there⟩, if_pos hr, put, hr]
  · rw [if_neg fun h => hr h.1, if_neg hr]

theorem not_puts (h : Lands b x b' come) (ne : x ≠ y) (q : Nat) :
    (b'.queue q).items ≠ (b.queue q).items ++ [y] := by
  cases h with
  | launches rests => exact rests.takes.not_puts y q
  | linesUp rests | refused rests => exact rests.takes.not_puts y q
  | enters there put _ queues =>
    rw [items_enters there put queues]
    split
    · simpa using ne
    · simp

end Lands

theorem Pursues.settings_eq (h : Pursues b jobs x b' come) : b'.settings = b.settings := by
  cases h with
  | on calls | off calls => exact calls.settings_eq

theorem Pursues.runs_eq (h : Pursues b jobs x b' come) (y : Nat) :
    b'.launched.countP (·.runs y) = b.launched.countP (·.runs y) := by
  cases h with
  | on calls | off calls => exact (Rests.of_calls calls).runs_eq y

theorem Pursues.not_puts (h : Pursues b jobs x b' come) (y q : Nat) :
    (b'.queue q).items ≠ (b.queue q).items ++ [y] := by
  cases h with
  | on calls | off calls => exact (Rests.of_calls calls).takes.not_puts y q

theorem Pursues.not_carries (h : Pursues b jobs x b' come) (y : Nat) :
    ∀ j ∈ come, j.carries y = false := by
  cases h <;> simp [Job.carries]

theorem Pursues.flight (h : Pursues b jobs x b' come) {k : String}
    (hk : b'.inFlight.get? k = some y) : b.inFlight.get? k = some y := by
  cases h with
  | on calls => exact calls.inFlight_eq ▸ hk
  | off calls => exact calls.inFlight_eq ▸ flight_of_erase hk

end Bus

theorem Bus.Moved.dispatched {b b' : Bus} {x : Nat} {t : Endpoint}
    (h : Moved b x (.dispatch t) b') : b'.Dispatched x :=
  ⟨Nat.lt_of_lt_of_le h.lt_size h.size_le, h.sent⟩

/-! ### Legs -/

namespace Traffic
variable {s s' : Traffic} {d : Deed} {b : Bus} {jobs others : List Job} {x y : Nat}
open Bus

namespace Submits
variable {t : Endpoint} {dl : Delivery} {r : Turn Access StoreAnswer}

theorem rests (h : s.Submits x t dl d b r jobs) : Rests s.bus b := by
  cases h with
  | spared moved => exact .of_moved moved
  | begun moved _ call => exact (Rests.of_moved moved).trans (.of_calls (.of_turn call (.persist _ x)))
  | resumed job call => exact .of_calls (.of_turn call (.resumeAccess s.bus _))

theorem begins_eq (h : s.Submits x t dl d b r jobs) (y : Nat) : d.begins y = false := by
  cases h <;> rfl

theorem queues_eq (h : s.Submits x t dl d b r jobs) : b.queues = s.bus.queues := by
  cases h with
  | spared moved => exact moved.queues_eq
  | begun moved _ call => exact (Calls.of_turn call (.persist _ x)).queues_eq.trans moved.queues_eq
  | resumed job call => exact (Calls.of_turn call (.resumeAccess s.bus _)).queues_eq

theorem dispatched (h : s.Submits x t dl d b r jobs) (ordered : s.bus.Orderly s.jobs) :
    b.Dispatched x := by
  cases h with
  | spared moved => exact moved.dispatched
  | begun moved _ call => exact moved.dispatched.evolves (Calls.of_turn call (.persist _ x)).evolves
  | resumed job call =>
    exact (ordered x (.inl ⟨_, job.mem_iff.2 List.mem_cons_self, rfl⟩)).evolves
      (Calls.of_turn call (.resumeAccess s.bus _)).evolves

theorem perm (h : s.Submits x t dl d b r jobs) : ∃ gone, s.jobs.Perm (gone ++ jobs) := by
  cases h with
  | spared | begun => exact ⟨[], .refl _⟩
  | resumed job => exact ⟨[_], job⟩

theorem mem_jobs (h : s.Submits x t dl d b r jobs) {j : Job} (hj : j ∈ jobs) : j ∈ s.jobs := by
  obtain ⟨gone, job⟩ := h.perm
  exact job.mem_iff.2 (List.mem_append_right _ hj)

theorem runs_track (h : s.Submits x t dl d b r jobs) (y : Nat) :
    (b.track x).launched.countP (·.runs y) = s.bus.launched.countP (·.runs y) := by
  rw [← h.rests.runs_eq y]
  simp [track, launch, Launch.runs]

end Submits
end Traffic

namespace Transition
variable {s s' : Traffic} {d : Deed} {b : Bus} {come others : List Job} {x y : Nat}
open Bus

namespace Unmoved

theorem of_jobs (gone come : List Job) (job : s.jobs.Perm (gone ++ others))
    (jobs : s'.jobs = come ++ others) (idle : ∀ j ∈ come, j.carries x = false)
    (runs : s'.bus.launched.countP (·.runs x) = s.bus.launched.countP (·.runs x))
    (begins : d.begins x = false) (puts : ∀ q, ¬ Puts ⟨s, d, s'⟩ x q)
    (flights : ∀ k, s'.bus.inFlight.get? k = some x → s.bus.inFlight.get? k = some x) :
    Unmoved x ⟨s, d, s'⟩ where
  carried j hj carries := by
    rw [jobs] at hj
    rcases List.mem_append.1 hj with hj | hj
    · cases (idle j hj).symm.trans carries
    · exact job.mem_iff.2 (List.mem_append_right _ hj)
  carried_le := by
    have none : come.countP (·.carries x) = 0 :=
      List.countP_eq_zero.2 fun j hj => by simp [idle j hj]
    rw [jobs, job.countP_eq, List.countP_append, List.countP_append, none]
    omega
  runs_eq := runs
  not_begins := begins
  not_puts := puts
  flights := flights

theorem of_rests (gone come : List Job) (job : s.jobs.Perm (gone ++ others))
    (jobs : s'.jobs = come ++ others) (idle : ∀ j ∈ come, j.carries x = false)
    (rests : Rests s.bus s'.bus) (begins : d.begins x = false) : Unmoved x ⟨s, d, s'⟩ :=
  of_jobs gone come job jobs idle (rests.runs_eq x) begins (rests.takes.not_puts x)
    fun _ hk => rests.inFlight_eq ▸ hk

theorem of_lands {v : Option Json} {t : Endpoint} {dl : Delivery} (ne : y ≠ x)
    (submits : s.Submits y t dl d b (.ended (.ok v)) others)
    (lands : Lands (b.track y) y s'.bus come) (jobs : s'.jobs = come ++ others) :
    Unmoved x ⟨s, d, s'⟩ := by
  obtain ⟨gone, job⟩ := submits.perm
  refine of_jobs gone come job jobs (lands.not_carries ne) ?_ (submits.begins_eq x) (fun q => ?_)
    fun k hk => ?_
  · rw [lands.runs_eq ne, submits.runs_track]
  · have puts := lands.not_puts ne q
    have same : (b.track y).queue q = s.bus.queue q := queue_congr submits.queues_eq q
    rwa [same] at puts
  · rw [lands.inFlight_eq, track, launch, Table.get?_insert] at hk
    split at hk
    · exact absurd (Option.some.inj hk) ne
    · exact submits.rests.inFlight_eq ▸ hk

theorem of_queues {c : ComponentId} {q ticket : Nat} (ne : y ≠ x)
    (job : s.jobs.Perm (.sending (.queueing y c q ticket) :: others))
    (lands : Lands s.bus y s'.bus come) (jobs : s'.jobs = come ++ others) (hd : d.begins x = false) :
    Unmoved x ⟨s, d, s'⟩ :=
  of_jobs [_] come job jobs (lands.not_carries ne) (lands.runs_eq ne) hd (lands.not_puts ne)
    fun _ hk => lands.inFlight_eq ▸ hk

theorem of_begins {run n : Nat} {awaited : Bool} {before after : List Launch} (ne : y ≠ x)
    (launched : s.bus.launched = before ++ .processor run n y awaited :: after)
    (bus : s'.bus = s.bus.leaving (before ++ after))
    (jobs : s'.jobs = .processing run n y awaited :: s.jobs) :
    Unmoved x ⟨s, .take (.processor run n y awaited), s'⟩ := by
  refine of_jobs [] [_] (.refl _) jobs (by simp [Job.carries]) ?_ ?_ (fun q => ?_) fun k hk => ?_
  · rw [bus, launched]
    simp [leaving, Launch.runs, ne]
  · simpa [Deed.begins, Launch.runs] using ne
  · rw [Puts, bus]
    exact (Takes.of_eq (b := s.bus) rfl).not_puts x q
  · rw [bus] at hk
    exact hk

end Unmoved

end Transition

namespace Traffic
variable {s s' : Traffic} {d : Deed} {x : Nat}
open Bus Transition

theorem Step.leg (h : s.Step d s') (ordered : s.bus.Orderly s.jobs) (x : Nat) :
    Leg x ⟨s, d, s'⟩ := by
  have passage := h.passage ordered
  obtain ⟨b, jobs, log⟩ := s'
  -- a step that takes some exchange on its way is a leg of `x` when it is about `x`
  cases passage with
  | aside gone come rests deed job idle =>
    refine .unmoved (.of_rests gone come job rfl (fun j hj => Job.not_carries (idle j hj) x) rests ?_)
    rw [Bool.eq_false_iff]
    intro begins
    cases d with
    | take l =>
      cases l with
      | processor => exact deed _ rfl rfl
      | _ => cases begins
    | _ => cases begins
  | @waits y target dl d b a others submits =>
    by_cases e : y = x
    · subst e
      exact .waits submits rfl
    · obtain ⟨gone, job⟩ := submits.perm
      exact .unmoved (.of_rests gone [_] job rfl (by simpa [Job.carries] using e) submits.rests
        (submits.begins_eq x))
  | @refused y target dl d b b' e others submits rests ended =>
    by_cases e : y = x
    · subst e
      exact .refused submits rests ended
    · obtain ⟨gone, job⟩ := submits.perm
      exact .unmoved (.of_rests gone [] job rfl (by simp) (submits.rests.trans rests)
        (submits.begins_eq x))
  | @lands y target dl d b b' v come others submits lands =>
    by_cases e : y = x
    · subst e
      exact .lands submits lands rfl
    · exact .unmoved (.of_lands e submits lands rfl)
  | @queues y c q ticket b come others job lands =>
    by_cases e : y = x
    · subst e
      exact .queues rfl job lands rfl
    · exact .unmoved (.of_queues e job lands rfl rfl)
  | @begins run n y awaited before after launched =>
    by_cases e : y = x
    · subst e
      exact .begins rfl launched rfl rfl
    · exact .unmoved (.of_begins e launched rfl rfl)
  | @tracks y persisted before after b come launched pursues =>
    refine .unmoved (.of_jobs [] come (.refl _) rfl (pursues.not_carries x) ?_ rfl
      (pursues.not_puts x) fun k hk => pursues.flight hk)
    rw [pursues.runs_eq, launched]
    simp [leaving, Launch.runs]
  | @follows u b come others job pursues =>
    exact .unmoved (.of_jobs [_] come job rfl (pursues.not_carries x) (pursues.runs_eq x) rfl
      (pursues.not_puts x) fun k hk => pursues.flight hk)

theorem Step.evolves (h : s.Step d s') : Evolves s.bus s'.bus := by
  have event := h.event
  obtain ⟨b, jobs, log⟩ := s'
  cases event with
  | plain _ _ _ stirs => exact stirs.toEvolves
  | send => exact .send s.bus _
  | respond => exact .respond s.bus _
  | resumeSend => exact .resumeSend s.bus _
  | retrieve id => exact (Calls.retrieve s.bus id).evolves
  | resumeRetrieve => exact (Calls.resumeAccess s.bus _).evolves
  | track => exact (Evolves.follow _ _ _).from_eq rfl
  | resumeTracking => exact .resumeTracking s.bus _
  | process => exact .of_eq rfl
  | finish o => exact .finish s.bus _ _ _ o
  | serve => exact .of_eq rfl

theorem Step.settings_eq (h : s.Step d s') (ordered : s.bus.Orderly s.jobs) :
    s'.bus.settings = s.bus.settings := by
  have passage := h.passage ordered
  obtain ⟨b, jobs, log⟩ := s'
  cases passage with
  | aside _ _ rests => exact rests.settings_eq
  | waits submits => exact submits.rests.settings_eq
  | refused submits rests => exact rests.settings_eq.trans submits.rests.settings_eq
  | lands submits lands => exact lands.settings_eq.trans submits.rests.settings_eq
  | queues _ lands => exact lands.settings_eq
  | begins => rfl
  | tracks _ pursues => exact pursues.settings_eq
  | follows _ pursues => exact pursues.settings_eq

end Traffic

namespace Transition
variable {t : Transition} {x : Nat}
open Bus

theorem not_gives (runs : t.after.bus.launched.countP (·.runs x) =
    t.before.bus.launched.countP (·.runs x)) (begins : t.deed.begins x = false)
    (puts : ∀ q, ¬ t.Puts x q) : ¬ t.Gives x := by
  rintro (more | taken | put)
  · exact absurd more (by rw [runs]; exact Nat.lt_irrefl _)
  · cases begins.symm.trans taken
  · exact puts _ put

theorem Unmoved.not_gives (h : t.Unmoved x) : ¬ t.Gives x :=
  Transition.not_gives h.runs_eq h.not_begins h.not_puts

theorem not_gives_of_rests (rests : Rests t.before.bus t.after.bus)
    (begins : t.deed.begins x = false) : ¬ t.Gives x :=
  Transition.not_gives (rests.runs_eq x) begins (rests.takes.not_puts x)

/-- What is given away or on offer was on offer before, or its send has just been through with
writing it down and has gone on. -/
theorem Leg.offered (h : t.Leg x) (new : t.Gives x ∨ t.after.Offered x) :
    t.before.Offered x ∨ ∃ target dl b v come others,
      t.before.Submits x target dl t.deed b (.ended (.ok v)) others ∧
        Lands (b.track x) x t.after.bus come := by
  -- nothing is new about jobs that were there before, with the same processors launched
  have old (jobs : ∀ j ∈ t.after.jobs, j.carries x = true → j ∈ t.before.jobs ∨
      ∃ target dl a, j = .sending (.persisting x target dl a))
      (runs : t.after.bus.launched.countP (·.runs x) = t.before.bus.launched.countP (·.runs x))
      (gives : ¬ t.Gives x) : t.before.Offered x := by
    obtain ⟨c, q, ticket, hj⟩ | launched := new.resolve_left gives
    · obtain hj | ⟨_, _, _, e⟩ := jobs _ hj (beq_self_eq_true x)
      · exact .inl ⟨c, q, ticket, hj⟩
      · cases e
    · exact .inr (runs ▸ launched)
  cases h with
  | unmoved h =>
    exact .inl (old (fun j hj carries => .inl (h.carried j hj carries)) h.runs_eq h.not_gives)
  | @waits target dl a others submits jobs =>
    refine .inl (old (fun j hj _ => ?_) (submits.rests.runs_eq x)
      (not_gives_of_rests submits.rests (submits.begins_eq x)))
    rw [jobs] at hj
    rcases List.mem_cons.1 hj with rfl | hj
    · exact .inr ⟨target, dl, a, rfl⟩
    · exact .inl (submits.mem_jobs hj)
  | refused submits rests =>
    have rests := submits.rests.trans rests
    exact .inl (old (fun j hj _ => .inl (submits.mem_jobs hj)) (rests.runs_eq x)
      (not_gives_of_rests rests (submits.begins_eq x)))
  | lands submits lands => exact .inr ⟨_, _, _, _, _, _, submits, lands⟩
  | @queues c q ticket come others deed job =>
    exact .inl (.inl ⟨c, q, ticket, job.mem_iff.2 List.mem_cons_self⟩)
  | begins deed launched => exact .inl (.inr (runs_pos launched))

end Transition

/-! ### Due deliveries -/

/-- How many queues of the second bus have got `x` since the first. -/
def Bus.puts (b b' : Bus) (x : Nat) : Nat :=
  (List.range b'.queues.length).countP fun q =>
    decide ((b'.queue q).items = (b.queue q).items ++ [x])

/-- How often `x` is handed over: processors that begin on it, and queues that get it. -/
def Transition.deliveries (t : Transition) (x : Nat) : Nat :=
  (if t.deed.begins x then 1 else 0) + t.before.bus.puts t.after.bus x

/-- Deliveries of `x` that have still to be made: sends that carry it, and processors that have been
launched on it. -/
def Traffic.due (s : Traffic) (x : Nat) : Nat :=
  s.jobs.countP (·.carries x) + s.bus.launched.countP (·.runs x)

namespace Traffic
variable {s : Traffic} {x : Nat}

theorem due_pos_of_carries {j : Job} (hj : j ∈ s.jobs) (h : j.carries x = true) : 0 < s.due x := by
  have carried : 0 < s.jobs.countP (·.carries x) := List.countP_pos_iff.2 ⟨j, hj, h⟩
  exact Nat.lt_of_lt_of_le carried (Nat.le_add_right _ _)

theorem Offered.due_pos (h : s.Offered x) : 0 < s.due x := by
  obtain ⟨c, q, ticket, hj⟩ | launched := h
  · exact due_pos_of_carries hj (beq_self_eq_true x)
  · exact Nat.lt_of_lt_of_le launched (Nat.le_add_left _ _)

theorem dispatched_of_due (ordered : s.bus.Orderly s.jobs) (due : 0 < s.due x) :
    s.bus.Dispatched x := by
  by_cases carried : 0 < s.jobs.countP (·.carries x)
  · obtain ⟨j, hj, carries⟩ := List.countP_pos_iff.1 carried
    match j, hj, carries with
    | .sending (.persisting y _ _ _), hj, carries | .sending (.queueing y _ _ _), hj, carries =>
      obtain rfl : y = x := of_decide_eq_true carries
      exact ordered y (.inl ⟨_, hj, rfl⟩)
  · have launched : 0 < s.bus.launched.countP (·.runs x) := by
      unfold Traffic.due at due
      omega
    obtain ⟨l, hl, runs⟩ := List.countP_pos_iff.1 launched
    match l, hl, runs with
    | .processor _ _ y _, hl, runs =>
      obtain rfl : y = x := of_decide_eq_true runs
      exact ordered y (.inr ⟨_, List.mem_filter.2 ⟨hl, rfl⟩, rfl⟩)

theorem Offered.dispatched (h : s.Offered x) (ordered : s.bus.Orderly s.jobs) :
    s.bus.Dispatched x :=
  dispatched_of_due ordered h.due_pos

end Traffic

namespace Bus
variable {b b' : Bus} {x : Nat} {come : List Job}

theorem puts_eq_zero (h : ∀ q, (b'.queue q).items ≠ (b.queue q).items ++ [x]) :
    b.puts b' x = 0 :=
  List.countP_eq_zero.2 fun q _ => by simpa using h q

theorem puts_congr {c : Bus} (h : c.queues = b.queues) : b.puts b' x = c.puts b' x := by
  simp only [puts, queue_congr h]

theorem puts_le_one {q : Nat} (h : ∀ r, r ≠ q → (b'.queue r).items ≠ (b.queue r).items ++ [x]) :
    b.puts b' x ≤ 1 := by
  have once : (List.range b'.queues.length).count q ≤ 1 :=
    List.nodup_iff_count.1 List.nodup_range q
  -- whatever queue has got `x` is number `q`
  refine Nat.le_trans (List.countP_mono_left fun r _ hr => ?_) once
  by_cases e : r = q
  · simpa using e
  · exact absurd (of_decide_eq_true hr) (h r e)

/-- One who lands makes one delivery, or carries it on, or leaves it to a processor. -/
theorem Lands.due_le (h : Lands b x b' come) :
    come.countP (·.carries x) + b'.launched.countP (·.runs x) + b.puts b' x ≤
      b.launched.countP (·.runs x) + 1 := by
  have idle (h : ∀ j ∈ come, j.isBusy = false) : come.countP (·.carries x) = 0 :=
    List.countP_eq_zero.2 fun j hj => by simp [Job.not_carries (h j hj) x]
  cases h with
  | @launches run n awaited _ _ rests come_idle =>
    have puts : b.puts b' x = 0 := puts_eq_zero (rests.takes.not_puts x)
    rw [idle come_idle, puts, rests.runs_eq x]
    simp [launch, Launch.runs]
  | @enters q p _ _ there put rests queues come_idle =>
    have puts : b.puts b' x ≤ 1 := puts_le_one (q := q) fun r hr => by
      rw [items_enters there put queues, if_neg hr]
      simp
    have runs : b'.launched.countP (·.runs x) = b.launched.countP (·.runs x) := rests.runs_eq x
    rw [idle come_idle, runs]
    omega
  | linesUp rests =>
    rw [puts_eq_zero (rests.takes.not_puts x), rests.runs_eq x]
    simp [Job.carries]
    omega
  | refused rests =>
    rw [puts_eq_zero (rests.takes.not_puts x), rests.runs_eq x]
    simp

end Bus

theorem Bus.Moved.takes_hop {b b' : Bus} {x : Nat} {t : Endpoint} (h : Moved b x (.dispatch t) b') :
    (b.exchange x).hops = 0 ∧ (b'.exchange x).hops = 1 := by
  obtain ⟨ne, -⟩ | ⟨-, -, unsent, -, sent⟩ := h.dispatch_cases x
  · exact absurd rfl ne
  · exact ⟨unsent, sent⟩

namespace Traffic
variable {s s' : Traffic} {d : Deed} {b : Bus} {others : List Job} {x : Nat}

/-- The send of `x` has spent the first hop on one delivery, in this turn or before. -/
theorem Submits.due_le {t : Endpoint} {dl : Delivery} {r : Turn Access StoreAnswer}
    (h : s.Submits x t dl d b r others) :
    others.countP (·.carries x) + min (s.bus.exchange x).hops 1 + 1 ≤
      s.jobs.countP (·.carries x) + min (b.exchange x).hops 1 := by
  cases h with
  | spared moved =>
    obtain ⟨before, after⟩ := moved.takes_hop
    omega
  | begun moved _ call =>
    obtain ⟨before, after⟩ := moved.takes_hop
    have same := (Bus.Calls.of_turn call (.persist _ x)).exchange_eq x
    rw [same]
    omega
  | resumed job call =>
    have same := (Bus.Calls.of_turn call (.resumeAccess s.bus _)).exchange_eq x
    rw [same, job.countP_eq, List.countP_cons_of_pos (by simp [Job.carries])]
    omega

end Traffic

namespace Transition
variable {t : Transition} {x : Nat}
open Bus

theorem deliveries_of_rests (begins : t.deed.begins x = false)
    (puts : ∀ q, ¬ t.Puts x q) : t.deliveries x = 0 := by
  rw [deliveries, begins, puts_eq_zero puts]
  rfl

theorem Unmoved.due_le (h : t.Unmoved x) : t.after.due x ≤ t.before.due x := by
  have carried := h.carried_le
  have runs := h.runs_eq
  unfold Traffic.due
  omega

/-- A step hands `x` over only if that was due, or takes its first hop. -/
theorem Leg.due_le (h : t.Leg x) (evolves : Evolves t.before.bus t.after.bus) :
    t.after.due x + t.deliveries x + min (t.before.bus.exchange x).hops 1 ≤
      t.before.due x + min (t.after.bus.exchange x).hops 1 := by
  have hops := evolves.hops_le x
  -- a submission that moves on takes the hop or ends the job that had it; the rest is counting
  unfold Traffic.due
  cases h with
  | unmoved h =>
    have jobs := h.carried_le
    rw [deliveries_of_rests h.not_begins h.not_puts, h.runs_eq]
    omega
  | waits submits jobs =>
    have due := submits.due_le
    rw [deliveries_of_rests (submits.begins_eq x) (submits.rests.takes.not_puts x), jobs,
      List.countP_cons_of_pos (by simp [Job.carries]), submits.rests.runs_eq x]
    omega
  | refused submits rests =>
    have due := submits.due_le
    have hops := rests.hops_le x
    have rests := submits.rests.trans rests
    rw [deliveries_of_rests (submits.begins_eq x) (rests.takes.not_puts x), rests.runs_eq x]
    omega
  | @lands target dl b v come others submits lands jobs =>
    have due := submits.due_le
    have landed := lands.due_le
    have hops : (b.exchange x).hops ≤ _ := lands.toEvolves.hops_le x
    have runs := submits.runs_track x
    rw [deliveries, submits.begins_eq x, puts_congr (c := b.track x) submits.queues_eq, jobs,
      List.countP_append]
    simp only [Bool.false_eq_true, if_false]
    omega
  | queues deed job lands jobs =>
    have landed := lands.due_le
    have begins : t.deed.begins x = false := by rw [deed]; rfl
    rw [deliveries, begins, jobs, job.countP_eq, List.countP_append,
      List.countP_cons_of_pos (by simp [Job.carries])]
    simp only [Bool.false_eq_true, if_false]
    omega
  | @begins run n awaited before after deed launched bus jobs =>
    have puts : t.before.bus.puts t.after.bus x = 0 := by
      rw [bus]
      exact puts_eq_zero ((Takes.of_eq (b := t.before.bus) rfl).not_puts x)
    have begins : t.deed.begins x = true := by rw [deed]; simp [Deed.begins, Launch.runs]
    have runs : t.before.bus.launched.countP (·.runs x) =
        t.after.bus.launched.countP (·.runs x) + 1 := by
      rw [bus, launched]
      simp [leaving, Launch.runs]
      omega
    rw [deliveries, begins, puts, jobs, runs, List.countP_cons_of_neg (by simp [Job.carries])]
    simp only [if_true]
    omega

end Transition

/-! ### Courses -/

/-- Something has happened elsewhere: exchanges have gone on, and what a bus shares with others may
be as they have left it, but it has done nothing itself. -/
structure Bus.Elsewhere (b b' : Bus) : Prop extends Bus.Evolves b b' where
  settings_eq : b'.settings = b.settings
  queues_eq : b'.queues = b.queues
  inFlight_eq : b'.inFlight = b.inFlight
  launched_eq : b'.launched = b.launched

/-- What can have happened, newest first, and what has become of `s₀`. -/
inductive Course (s₀ : Traffic) : List Transition → Traffic → Prop
  | start : Course s₀ [] s₀
  | step {l : List Transition} {s s' : Traffic} {d : Deed} (course : Course s₀ l s)
    (step : s.Step d s') : Course s₀ (⟨s, d, s'⟩ :: l) s'
  | elsewhere {l : List Transition} {s : Traffic} {b : Bus} (course : Course s₀ l s)
    (elsewhere : s.bus.Elsewhere b) : Course s₀ l { s with bus := b }

theorem Bus.Elsewhere.orderly {b b' : Bus} {jobs : List Job} (h : b.Elsewhere b')
    (ordered : b.Orderly jobs) : b'.Orderly jobs := by
  have duties : b'.duties = b.duties := by
    unfold duties
    rw [h.launched_eq]
  exact ordered.mono (fun _ hj => .inl hj) (fun _ hl => duties ▸ hl) h.toEvolves

theorem Course.orderly {s₀ s : Traffic} {l : List Transition} (start : s₀.bus.Orderly s₀.jobs)
    (h : Course s₀ l s) : s.bus.Orderly s.jobs := by
  induction h with
  | start => exact start
  | step _ step ih => exact step.event.orderly ih
  | elsewhere _ elsewhere ih => exact elsewhere.orderly ih

theorem Course.evolves {s₀ s : Traffic} {l : List Transition} (h : Course s₀ l s) :
    Bus.Evolves s₀.bus s.bus := by
  induction h with
  | start => exact .refl _
  | step _ step ih => exact ih.trans step.evolves
  | elsewhere _ elsewhere ih => exact ih.trans elsewhere.toEvolves

theorem Course.split {s₀ s : Traffic} {l later earlier : List Transition} {t : Transition}
    (h : Course s₀ l s) (hl : l = later ++ t :: earlier) :
    Course s₀ earlier t.before ∧ t.before.Step t.deed t.after := by
  induction h generalizing later with
  | start => cases later <;> cases hl
  | step course step ih =>
    cases later with
    | nil =>
      cases hl
      exact ⟨course, step⟩
    | cons u later =>
      cases hl
      exact ih rfl
  | elsewhere _ _ ih => exact ih hl

theorem Traffic.Runs.course {P : Traffic → Deed → Traffic → Prop} {s₀ s : Traffic}
    (h : Runs P s₀ s) : ∃ l, Course s₀ l s := by
  induction h with
  | refl => exact ⟨[], .start⟩
  | step _ step _ ih =>
    obtain ⟨l, course⟩ := ih
    exact ⟨_, course.step step⟩

/-- What has happened on a bus of its own, each step meeting `P`, newest first. -/
inductive Traffic.Trace (P : Traffic → Deed → Traffic → Prop) (s₀ : Traffic) :
    List Transition → Traffic → Prop
  | start : Trace P s₀ [] s₀
  | step {l : List Transition} {s s' : Traffic} {d : Deed} (trace : Trace P s₀ l s)
    (step : s.Step d s') (meets : P s d s') : Trace P s₀ (⟨s, d, s'⟩ :: l) s'

namespace Traffic.Trace
variable {P : Traffic → Deed → Traffic → Prop} {s₀ s : Traffic} {l later earlier : List Transition}
  {t : Transition}

theorem course (h : Trace P s₀ l s) : Course s₀ l s := by
  induction h with
  | start => exact .start
  | step _ step _ ih => exact ih.step step

theorem evolves (h : Trace P s₀ l s) : Bus.Evolves s₀.bus s.bus := h.course.evolves

theorem split (h : Trace P s₀ l s) (hl : l = later ++ t :: earlier) :
    Trace P s₀ earlier t.before ∧ t.before.Step t.deed t.after ∧ P t.before t.deed t.after ∧
      Trace P t.after later s := by
  induction h generalizing later with
  | start => cases later <;> cases hl
  | step trace step meets ih =>
    cases later with
    | nil =>
      cases hl
      exact ⟨trace, step, meets, .start⟩
    | cons u later =>
      cases hl
      obtain ⟨before, turn, met, rest⟩ := ih rfl
      exact ⟨before, turn, met, rest.step step meets⟩

end Traffic.Trace

/-! ### Spent hops -/

namespace Transition
variable {t : Transition} {x : Nat}

theorem Leg.unmoved_of_spent (h : t.Leg x) (due : t.before.due x = 0)
    (sent : 1 ≤ (t.before.bus.exchange x).hops) : t.Unmoved x := by
  unfold Traffic.due at due
  cases h with
  | unmoved h => exact h
  | waits submits | refused submits | lands submits =>
    have submitted := submits.due_le
    omega
  | queues deed job =>
    rw [job.countP_eq, List.countP_cons_of_pos (by simp [Job.carries])] at due
    omega
  | begins deed launched =>
    exact absurd (Nat.eq_zero_of_add_eq_zero due).2 (Nat.ne_of_gt (Bus.runs_pos launched))

end Transition

namespace Traffic
variable {l : List Transition} {s s' s₀ : Traffic} {d : Deed} {b : Bus} {x : Nat}

/-- So far nobody has been given `x`, and it has not been counted in flight. -/
structure Unseen (l : List Transition) (s : Traffic) (x : Nat) : Prop where
  not_flying : ¬ s.bus.Flying x
  earlier : ∀ u ∈ l, ¬ u.Gives x ∧ ¬ u.after.bus.Flying x

/-- Nor is anybody going to be given `x`: its hop is spent, and no delivery of it is due. -/
structure Spent (l : List Transition) (s : Traffic) (x : Nat) : Prop extends Unseen l s x where
  lt_size : x < s.bus.exchanges.size
  no_due : s.due x = 0
  sent : 1 ≤ (s.bus.exchange x).hops

theorem Spent.step (h : Spent l s x) (ordered : s.bus.Orderly s.jobs) (step : s.Step d s') :
    Spent (⟨s, d, s'⟩ :: l) s' x := by
  have evolves := step.evolves
  have unmoved := (step.leg ordered x).unmoved_of_spent h.no_due h.sent
  have not_flying : ¬ s'.bus.Flying x := fun ⟨k, hk⟩ => h.not_flying ⟨k, unmoved.flights k hk⟩
  exact ⟨⟨not_flying, List.forall_mem_cons.2 ⟨⟨unmoved.not_gives, not_flying⟩, h.earlier⟩⟩,
    Nat.lt_of_lt_of_le h.lt_size evolves.size_le, Nat.le_zero.1 (h.no_due ▸ unmoved.due_le),
    Nat.le_trans h.sent (evolves.hops_le x)⟩

theorem Unseen.elsewhere (h : Unseen l s x) (e : s.bus.Elsewhere b) :
    Unseen l { s with bus := b } x :=
  ⟨fun ⟨k, hk⟩ => h.not_flying ⟨k, e.inFlight_eq ▸ hk⟩, h.earlier⟩

theorem due_elsewhere (s : Traffic) (e : s.bus.Elsewhere b) (x : Nat) :
    Traffic.due { s with bus := b } x = s.due x := by
  unfold Traffic.due
  rw [e.launched_eq]

theorem Spent.elsewhere (h : Spent l s x) (e : s.bus.Elsewhere b) :
    Spent l { s with bus := b } x where
  toUnseen := h.toUnseen.elsewhere e
  lt_size := Nat.lt_of_lt_of_le h.lt_size e.size_le
  no_due := (due_elsewhere s e x).trans h.no_due
  sent := Nat.le_trans h.sent (e.hops_le x)

end Traffic
end ServiceBus
