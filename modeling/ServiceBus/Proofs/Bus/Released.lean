import ServiceBus.Proofs.Bus.Accesses
import ServiceBus.Proofs.Bus.Lines

/-!
# Who waits on an exchange that has ended

When nobody can go on and the disk has done what it was asked for, a call that waits on an exchange
waits on one that has not ended (`released_of_quiet`): what it sees of the exchange is how it
stands, and the end is among what it waits for. Only the sender that stands in line for a slot in a
queue does not look at its exchange, so one whose exchange has ended stays in line
(`not_released_of_queueing`).
-/

namespace ServiceBus

namespace Exchange
variable {x : Exchange}

/-- Whatever one waits for on an exchange has come when it has ended. -/
theorem Shows.reached (h : x.Shows) (ended : x.status ≠ .active) (g : Goal) :
    g.reached x.published = true := by
  have terminal : x.status.isTerminal = true := Status.isTerminal_iff.2 ended
  rw [show x.published = x.progress from h]
  cases g with
  | completion => exact terminal
  | reply => exact Bool.or_eq_true_iff.2 (.inl terminal)

end Exchange

/-! ### Who waits for the disk -/

/-- Whoever waits for the disk has asked it. -/
def Bus.Asked (b : Bus) (jobs : List Job) : Prop :=
  ∀ j ∈ jobs, ∀ a, j.access? = some a → a.ticket < b.asked

namespace Bus.Asked
variable {b b' : Bus} {jobs others : List Job} {f : Access → Job}

theorem later (h : b.Asked jobs) (le : b.asked ≤ b'.asked) : b'.Asked jobs :=
  fun j hj a ha => Nat.lt_of_lt_of_le (h j hj a ha) le

theorem swap (gone come : List Job) (h : b.Asked jobs) (le : b.asked ≤ b'.asked)
    (job : jobs.Perm (gone ++ others))
    (new : ∀ j ∈ come, ∀ a, j.access? = some a → a.ticket < b'.asked) : b'.Asked (come ++ others) := by
  intro j hj
  rcases List.mem_append.1 hj with hj | hj
  · exact new j hj
  · exact h.later le j (job.mem_iff.2 (List.mem_append_right _ hj))

/-- A call on the store has a turn. -/
theorem turn {t : Turn Access StoreAnswer} (gone : List Job) (h : b.Asked jobs)
    (le : b.asked ≤ b'.asked) (job : jobs.Perm (gone ++ others)) (holder : Job.Holder f)
    (waits : ∀ a, t = .waiting a → a.ticket < b'.asked) : b'.Asked (t.jobs f ++ others) := by
  refine h.swap gone _ le job fun j hj a ha => ?_
  obtain ⟨c, turn, rfl⟩ := Turn.mem_jobs.1 hj
  rw [holder.access?_eq] at ha
  obtain rfl := Option.some.inj ha
  exact waits c turn

theorem idle (gone come : List Job) (h : b.Asked jobs) (le : b.asked ≤ b'.asked)
    (job : jobs.Perm (gone ++ others)) (idle : ∀ j ∈ come, j.access? = none) :
    b'.Asked (come ++ others) :=
  h.swap gone come le job fun j hj a ha => by cases (idle j hj).symm.trans ha

end Bus.Asked

namespace Bus
variable {b b' : Bus} {a : Access}

theorem ticket_lt_await {t : Turn DirectoryCall StoreAnswer} (h : (b.await t).2 = .waiting a) :
    a.ticket < (b.await t).1.asked := by
  cases t with
  | ended r => cases h
  | waiting c =>
    obtain rfl := Turn.waiting.inj h
    exact Nat.lt_succ_self _

theorem ticket_lt_callStore {n : Nat} {c : StoreCall} (h : (b.callStore n c).2 = .waiting a) :
    a.ticket < (b.callStore n c).1.asked :=
  ticket_lt_await h

theorem ticket_lt_persist {x : Nat} (h : (b.persist x).2 = .waiting a) :
    a.ticket < (b.persist x).1.asked := by
  unfold persist at h ⊢
  split at h
  · cases h
  · exact ticket_lt_callStore h

theorem Stirs.asked_le (h : Stirs b b') : b.asked ≤ b'.asked :=
  Nat.le_of_eq (congrArg Ledger.asked h.ledger_eq).symm

theorem Spares.asked_le (h : Spares b b') : b.asked ≤ b'.asked := Nat.le_of_eq h.asked_eq.symm

theorem Moved.asked_le {x : Nat} {c : Change} (h : Moved b x c b') : b.asked ≤ b'.asked :=
  Nat.le_of_eq (congrArg Ledger.asked h.ledger_eq).symm

theorem ticket_lt_retrieve {id : String} (h : (b.retrieve id).2 = .waiting a) :
    a.ticket < (b.retrieve id).1.asked := by
  unfold retrieve at h ⊢
  split at h
  · cases h
  · exact ticket_lt_callStore h

end Bus

namespace Traffic
variable {s s' s₀ : Traffic} {d : Deed} {b : Bus} {jobs : List Job} {x : Nat}
open Bus

theorem asked_follows {persisted : Bool} {c : Bus} {come others : List Job} (gone : List Job)
    (h : Follows c x persisted b come) (asked : s.bus.Asked s.jobs) (same : c.asked = s.bus.asked)
    (job : s.jobs.Perm (gone ++ others)) : b.Asked (come ++ others) := by
  have le := Nat.le_of_eq same.symm
  cases h with
  | watches => exact asked.idle gone _ le job (by simp [Job.access?])
  | @asks n _ a _ _ call =>
    have calls : Calls c b := .of_turn call (.callStore _ _ _)
    refine asked.turn (t := .waiting a) gone (Nat.le_trans le calls.asked_le) job (.removing x) ?_
    rintro _ ⟨⟩
    have waits := ticket_lt_callStore (congrArg Prod.snd call)
    rwa [call] at waits
  | @removes n b' r _ _ call =>
    have calls : Calls c b' := .of_turn call (.callStore _ _ _)
    have untracked : s.bus.asked ≤ (b'.untrack x).asked := Nat.le_trans le calls.asked_le
    exact asked.idle gone [] untracked job (by simp)
  | leaves =>
    have untracked : s.bus.asked ≤ (c.untrack x).asked := le
    exact asked.idle gone [] untracked job (by simp)

theorem Affair.asked (h : s.Affair d b jobs) (asked : s.bus.Asked s.jobs) : b.Asked jobs := by
  -- a call that waits after its turn has asked the disk, in this turn or before
  have resumes {f : Access → Job} (holder : Job.Holder f) {a : Access} {others : List Job}
      (job : s.jobs.Perm (f a :: others)) :
      (s.bus.resumeAccess a).1.Asked ((s.bus.resumeAccess a).2.jobs f ++ others) := by
    have before : a.ticket < s.bus.asked :=
      asked _ (job.mem_iff.2 List.mem_cons_self) a (holder.access?_eq a)
    exact asked.turn [_] (Calls.resumeAccess s.bus a).asked_le job holder fun a' waits =>
      ticket_lt_resumeAccess before (Prod.ext rfl waits)
  have resumed {a : Access} {b : Bus} {t : Turn Access StoreAnswer}
      (call : s.bus.resumeAccess a = (b, t)) : s.bus.asked ≤ b.asked :=
    (Calls.of_turn call (.resumeAccess s.bus a)).asked_le
  have persists {x : Nat} {f : Access → Job} (holder : Job.Holder f) {b₁ : Bus}
      (le : s.bus.asked ≤ b₁.asked) :
      (b₁.persist x).1.Asked ((b₁.persist x).2.jobs f ++ s.jobs) :=
    asked.turn [] (Nat.le_trans le (Calls.persist b₁ x).asked_le) (.refl _) holder
      fun a waits => ticket_lt_persist waits
  cases h with
  | aside gone come spares _ _ job idle =>
    exact asked.idle gone come spares.asked_le job fun j hj => Job.access?_of_isIdle (idle j hj)
  | @writes x t dl b₁ b a moved _ call =>
    have turn := persists (x := x) (.persisting x t dl) moved.asked_le
    rwa [call] at turn
  | @delivers x t b₁ b₂ b come moved ready spares idle =>
    have le : b₂.asked ≤ b.asked := spares.asked_le
    exact asked.idle [] come (Nat.le_trans moved.asked_le
      (Nat.le_trans (Calls.of_ready ready).asked_le le)) (.refl _)
      fun j hj => Job.access?_of_isIdle (idle j hj)
  | @refused x t b₁ b₂ b e moved _ call stirs =>
    exact asked.later (Nat.le_trans moved.asked_le
      (Nat.le_trans (Calls.of_turn call (.persist b₁ x)).asked_le stirs.asked_le))
  | @writing x t dl a a' b others job call =>
    have turn := resumes (.persisting x t dl) job
    rwa [call] at turn
  | @written x t dl a b₁ b v come others job call spares idle =>
    have le : b₁.asked ≤ b.asked := spares.asked_le
    exact asked.idle [_] come (Nat.le_trans (resumed call) le) job
      fun j hj => Job.access?_of_isIdle (idle j hj)
  | unwritten job call stirs =>
    exact asked.idle [_] [] (Nat.le_trans (resumed call) stirs.asked_le) job (by simp)
  | @replies x d b₁ _ moved => exact persists (.responding x) moved.asked_le
  | @replying x a others job => exact resumes (.responding x) job
  | retrieves id =>
    exact asked.turn [] (Calls.retrieve s.bus id).asked_le (.refl _) .retrieving
      fun a waits => ticket_lt_retrieve waits
  | retrieving job => exact resumes .retrieving job
  | tracks launched follows => exact asked_follows [] follows asked rfl (.refl _)
  | watching job follows => exact asked_follows [_] follows asked rfl job
  | @removing x a a' others b job call =>
    have turn := resumes (.removing x) job
    rwa [call] at turn
  | @removed x a others b r job call =>
    have le : s.bus.asked ≤ b.asked := resumed call
    have untracked : s.bus.asked ≤ (b.untrack x).asked := le
    exact asked.idle [_] [] untracked job (by simp)

/-! ### Who waits on an exchange -/

/-- Whoever begins to wait for an exchange sees how it stands. -/
def Showing (s : Traffic) (d : Deed) (_ : Traffic) : Prop :=
  ∀ x g limit, d = .ask (.watch x g limit) → (s.bus.exchange x).Shows

theorem waiting_resumeWatch {b : Bus} {w w' : Watching} (h : (b.resumeWatch w).2 = .waiting w') :
    w'.x = w.x := by
  unfold resumeWatch at h
  split at h
  · cases h
  · split at h
    · cases h
    · obtain rfl := Turn.waiting.inj h
      rfl

/-- Who waits for an exchange has waited for it before or begins to. -/
theorem Step.watching_cases {w : Watching} (h : s.Step d s') (hw : .watching w ∈ s'.jobs) :
    (∃ u, .watching u ∈ s.jobs ∧ u.x = w.x) ∨
      (w.x < s.bus.exchanges.size ∧ ∃ g limit, d = .ask (.watch w.x g limit)) := by
  obtain hw | ⟨r, rfl, proper, hw⟩ | ⟨l, b, rfl, hw⟩ | ⟨k, rfl, hk, hw⟩ := h.mem_jobs hw
  · exact .inl ⟨w, hw, rfl⟩
  · cases r with
    | watch x g limit =>
      obtain ⟨c, turn, e⟩ := Turn.mem_jobs.1 hw
      cases e
      obtain rfl : w.x = x := waiting_resumeWatch turn
      exact .inr ⟨proper, g, limit, rfl⟩
    | send | respond | accept | retrieve | drain | shutdown =>
      obtain ⟨c, -, e⟩ := Turn.mem_jobs.1 hw
      cases e
    | _ => cases hw
  · cases l with
    | tracker | closer =>
      obtain ⟨c, -, e⟩ := Turn.mem_jobs.1 hw
      cases e
    | processor => cases List.mem_singleton.1 hw
  · cases k with
    | watching u =>
      obtain ⟨c, turn, e⟩ := Turn.mem_jobs.1 hw
      cases e
      exact .inl ⟨u, hk, (waiting_resumeWatch turn).symm⟩
    | processing => cases List.mem_singleton.1 hw
    | _ =>
      obtain ⟨c, -, e⟩ := Turn.mem_jobs.1 hw
      cases e

theorem Runs.watching (fresh : s₀.Fresh) (runs : Runs Showing s₀ s) :
    ∀ w, .watching w ∈ s.jobs → w.x < s.bus.exchanges.size ∧ (s.bus.exchange w.x).Shows := by
  induction runs with
  | refl => simp [fresh.no_jobs]
  | @step s s' d _ step shows ih =>
    intro w hw
    have evolves := step.evolves
    have before : w.x < s.bus.exchanges.size ∧ (s.bus.exchange w.x).Shows := by
      obtain ⟨u, hu, e⟩ | ⟨there, g, limit, e⟩ := step.watching_cases hw
      · exact e ▸ ih u hu
      · exact ⟨there, shows w.x g limit e⟩
    exact ⟨Nat.lt_of_lt_of_le before.1 evolves.size_le, before.2.leads (evolves.leads _ before.1)⟩

theorem Runs.asked {P : Traffic → Deed → Traffic → Prop} (fresh : s₀.Fresh) (runs : Runs P s₀ s) :
    s.bus.Asked s.jobs := by
  induction runs with
  | refl => simp [Asked, fresh.no_jobs]
  | step run step _ ih => exact (step.event.affair (run.orderly fresh)).asked ih

end Traffic

/-- The exchange on which the job is a call that waits. -/
def Job.awaited? : Job → Option Nat
  | .sending c => some c.exchange
  | .watching w => some w.x
  | _ => none

namespace Traffic
variable {s s₀ : Traffic} {j : Job} {x : Nat}
open Bus

/-- When nobody can go on and the disk has done what it was asked for, the only call that waits on an
exchange that has ended is that of a sender who stands in line for a slot in a queue. -/
theorem released_of_quiet (fresh : s₀.Fresh) (runs : Runs Showing s₀ s) (quiet : s.Quiet)
    (served : s.bus.asked ≤ s.bus.served) (hj : j ∈ s.jobs) (awaits : j.awaited? = some x)
    (ended : (s.bus.exchange x).status ≠ .active) :
    ∃ c q ticket, j = .sending (.queueing x c q ticket) ∧ s.bus.stopped = false ∧
      (s.bus.queue q).closed = false ∧ ticket ∉ (s.bus.queue q).granted := by
  have waits {w : Wait} (hw : w ∈ j.waits) : s.bus.holds w = false := quiet.waiting j hj w hw
  have not_asking (a : Access) (access : j.access? = some a) : .disk a.ticket ∉ j.waits := by
    intro hw
    have asked := runs.asked fresh j hj a access
    exact of_decide_eq_false (waits hw) (Nat.lt_of_lt_of_le asked served)
  have not_watching {g : Goal} {seen : Progress} (shows : (s.bus.exchange x).Shows)
      (hw : .exchange x g seen ∈ j.waits) : False := by
    have reached : s.bus.reached x g = true := shows.reached ended g
    exact Bool.false_ne_true ((Bool.or_eq_false_iff.1 (waits hw)).1.symm.trans reached)
  cases j with
  | watching w =>
    obtain rfl := Option.some.inj awaits
    exact (not_watching (runs.watching fresh w hj).2 List.mem_cons_self).elim
  | sending c =>
    have sent (concerns : c.Concerns x) : (s.bus.exchange x).Shows :=
      (runs.orderly fresh x (.inl ⟨_, hj, concerns⟩)).sent.shows
    obtain rfl := Option.some.inj awaits
    cases c with
    | persisting x t dl a | responding x a =>
      exact absurd (List.mem_singleton.2 rfl) (not_asking a rfl)
    | processing x run deadline seen =>
      exact (not_watching (sent rfl) (.tail _ List.mem_cons_self)).elim
    | replying x deadline seen => exact (not_watching (sent rfl) List.mem_cons_self).elim
    | queueing x c q ticket =>
      exact ⟨c, q, ticket, rfl, waits List.mem_cons_self, waits (.tail _ List.mem_cons_self),
        of_decide_eq_false (waits (.tail _ (.tail _ List.mem_cons_self)))⟩
  | _ => cases awaits

/-- The queue is full, and a request is given up while its sender stands in line. -/
theorem runs_given_up : ∃ s, Runs Showing (stocked false) s ∧ s.Quiet ∧
    s.bus.asked ≤ s.bus.served ∧ .sending (.queueing 1 stock.component 0 1) ∈ s.jobs ∧
    (s.bus.exchange 1).status ≠ .active := by
  have idle : Runs Showing (stocked false) (stocked false) := .refl
  have connected := idle.step (.ask (r := .connectQueue stock.component) trivial) fun _ _ _ => nofun
  have sent := connected.step (.ask (r := .send 0) Nat.two_pos) fun _ _ _ => nofun
  have tracked := sent.step (@Step.take _ (.tracker 0 false) [] [] rfl) fun _ _ _ => nofun
  have lined := tracked.step (.ask (r := .send 1) Nat.one_lt_two) fun _ _ _ => nofun
  have followed := lined.step (@Step.take _ (.tracker 1 false) [] [] rfl) fun _ _ _ => nofun
  have given_up := followed.step (.ask (r := .change 1 (.fail "given up")) ⟨Nat.one_lt_two, rfl⟩)
    fun _ _ _ => nofun
  have ended := given_up.step (@Step.resume _ (.tracking _) _ (.refl _)) fun _ _ _ => nofun
  exact ⟨_, ended, ⟨rfl, by decide⟩, Nat.le_refl 0, List.mem_cons_self, by decide⟩

theorem released_of_quiet_given_up : ∃ s, (stocked false).Fresh ∧
    Runs Showing (stocked false) s ∧ s.Quiet ∧ s.bus.asked ≤ s.bus.served ∧
    (s.bus.exchange 1).status ≠ .active ∧ ∃ c q ticket,
      Job.sending (.queueing 1 stock.component 0 1) = .sending (.queueing 1 c q ticket) ∧
      s.bus.stopped = false ∧ (s.bus.queue q).closed = false ∧
      ticket ∉ (s.bus.queue q).granted := by
  have fresh := (blank_stocked false).toFresh
  obtain ⟨s, runs, quiet, served, hj, ended⟩ := runs_given_up
  exact ⟨s, fresh, runs, quiet, served, ended,
    released_of_quiet fresh runs quiet served hj rfl ended⟩

/-- He who stands in line stays there when his exchange ends. -/
theorem not_released_of_queueing : ¬ ∀ (s₀ s : Traffic) (j : Job) (x : Nat), s₀.Fresh →
    Runs Showing s₀ s → s.Quiet → s.bus.asked ≤ s.bus.served → j ∈ s.jobs → j.awaited? = some x →
    (s.bus.exchange x).status = .active := by
  intro claimed
  obtain ⟨s, runs, quiet, served, hj, ended⟩ := runs_given_up
  exact ended (claimed _ s _ 1 (blank_stocked false).toFresh runs quiet served hj rfl)

end Traffic
end ServiceBus
