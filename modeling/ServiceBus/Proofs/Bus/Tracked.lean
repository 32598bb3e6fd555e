import ServiceBus.Proofs.Bus.Accesses

/-!
# An exchange is delivered once

An exchange is dispatched once, so once at most it is written down to be delivered, and only one
tracker ever sets out for it (`Runs.once`).
-/

namespace ServiceBus

/-- The job is a send that writes `x` down before it delivers it. -/
def Job.delivers (x : Nat) : Job → Bool
  | .sending (.persisting y _ _ _) => y == x
  | _ => false

def Launch.tracks (x : Nat) : Launch → Bool
  | .tracker y _ => y == x
  | _ => false

/-- The deed is a tracker's setting out for `x`. -/
def Deed.tracks (x : Nat) : Deed → Bool
  | .take l => l.tracks x
  | _ => false

theorem Job.delivers_of_isIdle {j : Job} (h : j.isIdle = true) (x : Nat) :
    j.delivers x = false := by
  match j, h with
  | .sending (.processing ..), _ | .sending (.queueing ..), _ | .sending (.replying ..), _
  | .watching _, _ | .accepting _, _ | .draining _, _ | .shuttingDown _, _ | .closing _, _
  | .processing .., _ => rfl

namespace Traffic
variable {s s₀ : Traffic} {d : Deed} {b : Bus} {jobs : List Job} {x : Nat}
  {P : Traffic → Deed → Traffic → Prop}

/-- How many sends write `x` down, and how many trackers are to set out for it or have done so. -/
def deliveries (b : Bus) (jobs : List Job) (log : List Deed) (x : Nat) : Nat :=
  jobs.countP (·.delivers x) + b.trackers.countP (·.tracks x) + log.countP (·.tracks x)

/-- At most one delivery, and none before `x` has been dispatched. -/
def Once (b : Bus) (jobs : List Job) (log : List Deed) (x : Nat) : Prop :=
  deliveries b jobs log x ≤ min (b.exchange x).hops 1

theorem countP_delivers_of_isIdle (h : ∀ j ∈ jobs, j.isIdle = true) :
    jobs.countP (·.delivers x) = 0 :=
  List.countP_eq_zero.2 fun j hj => by simp [Job.delivers_of_isIdle (h j hj) x]

end Traffic

namespace Bus
variable {b b' : Bus} {x y : Nat}

theorem trackers_of_ledger (h : b'.ledger = b.ledger) : b'.trackers = b.trackers :=
  congrArg (fun l : Ledger => l.duties.filter Launch.isTracker) h

theorem Calls.trackers_eq (h : Calls b b') : b'.trackers = b.trackers := by
  rw [trackers, trackers, h.duties_eq]

theorem Moved.trackers_eq {c : Change} (h : Moved b x c b') : b'.trackers = b.trackers :=
  trackers_of_ledger h.ledger_eq

theorem Stirs.trackers_eq (h : Stirs b b') : b'.trackers = b.trackers :=
  trackers_of_ledger h.ledger_eq

theorem trackers_track (b : Bus) (x : Nat) :
    (b.track x).trackers = b.trackers ++ [.tracker x (b.persists x)] := by
  rw [trackers, trackers, duties_track, List.filter_append]
  rfl

theorem Spares.trackers_tracked (h : Spares (b.track x) b') :
    b'.trackers = b.trackers ++ [.tracker x (b.persists x)] :=
  h.trackers_eq.trans (trackers_track b x)

theorem trackers_launched {persisted : Bool} {before after : List Launch}
    (launched : b.launched = before ++ .tracker x persisted :: after) :
    b.trackers.Perm (.tracker x persisted :: (b.leaving (before ++ after)).trackers) := by
  unfold trackers duties
  rw [launched]
  exact (List.perm_middle.filter _).filter _

theorem Follows.trackers_eq {persisted : Bool} {come : List Job}
    (h : Follows b x persisted b' come) : b'.trackers = b.trackers := by
  cases h with
  | watches | leaves => rfl
  | asks _ _ call => exact (Calls.of_turn call (.callStore b _ _)).trackers_eq
  | removes _ _ call => exact (Calls.of_turn call (.callStore b _ _)).trackers_eq

theorem Follows.not_delivers {persisted : Bool} {come : List Job}
    (h : Follows b x persisted b' come) : come.countP (·.delivers y) = 0 := by
  cases h <;> rfl

theorem Follows.exchange_of_mem {persisted : Bool} {come : List Job} {t : Tracking}
    (h : Follows b x persisted b' come) (ht : .tracking t ∈ come) : t.exchange = x := by
  cases h with
  | watches | asks => cases List.mem_singleton.1 ht; rfl
  | removes | leaves => cases ht

end Bus

namespace Traffic
variable {s s₀ : Traffic} {d : Deed} {b b' : Bus} {jobs come gone others : List Job}
  {log : List Deed} {x y : Nat} {P : Traffic → Deed → Traffic → Prop}

namespace Once

theorem perm (h : Once b jobs log x) (p : jobs.Perm others) : Once b others log x := by
  unfold Once deliveries at h ⊢
  rwa [← p.countP_eq]

/-- Time passes, and nothing is delivered. -/
theorem step (gone come : List Job) (h : Once b (gone ++ others) log x)
    (hops : (b.exchange x).hops ≤ (b'.exchange x).hops)
    (come_le : come.countP (·.delivers x) ≤ gone.countP (·.delivers x))
    (trackers : b'.trackers = b.trackers) (deed : d.tracks x = false) :
    Once b' (come ++ others) (d :: log) x := by
  unfold Once deliveries at h ⊢
  rw [List.countP_append] at h ⊢
  rw [trackers, List.countP_cons_of_neg (by simp [deed])]
  omega

/-- `y` has been dispatched, and a delivery of it may have begun. -/
theorem dispatch {t : Endpoint} {b₁ : Bus} (h : Once b jobs log x)
    (moved : Bus.Moved b y (.dispatch t) b₁) (hops : (b₁.exchange x).hops ≤ (b'.exchange x).hops)
    (one : deliveries b' others (d :: log) x ≤ deliveries b jobs log x + if y = x then 1 else 0) :
    Once b' others (d :: log) x := by
  unfold Once at h ⊢
  split at one
  · next e =>
    subst e
    obtain ⟨z, hz, e⟩ := moved.moves
    rw [e] at hops
    cases hz with
    | dispatch _ _ unsent _ =>
      have hz : 1 ≤ (b'.exchange y).hops := hops
      omega
  · next ne =>
    rw [moved.others_eq x (Ne.symm ne)] at hops
    omega

end Once

end Traffic

namespace Bus
variable {b b' : Bus}

theorem Evolves.hops_le (he : Evolves b b') (x : Nat) :
    (b.exchange x).hops ≤ (b'.exchange x).hops := by
  by_cases hx : x < b.exchanges.size
  · exact (he.leads x hx).onward.hops_le
  · have hd : b.exchange x = default := by simp [exchange, Nat.le_of_not_lt hx]
    rw [hd]
    exact Nat.zero_le _

/-- Whoever has ended is never active again. -/
theorem Evolves.active_before (he : Evolves b b') {x : Nat}
    (h : (b'.exchange x).status = .active) : (b.exchange x).status = .active := by
  by_cases hx : x < b.exchanges.size
  · refine Decidable.byContradiction fun ended => ?_
    rw [(he.leads x hx).onward.ended_kept ended] at h
    exact ended h
  · rw [exchange, Array.getElem?_eq_none (Nat.le_of_not_lt hx)]
    rfl

end Bus

namespace Traffic
variable {s s₀ : Traffic} {d : Deed} {b b' : Bus} {jobs : List Job} {x : Nat}
  {P : Traffic → Deed → Traffic → Prop}

theorem countP_jobs {γ ρ : Type} {f : γ → Job} (hf : ∀ c, (f c).delivers x = false)
    (t : Turn γ ρ) : (t.jobs f).countP (·.delivers x) = 0 := by
  cases t <;> simp [Turn.jobs, hf]

theorem Affair.once (h : s.Affair d b jobs) (l : Bus.Later s.bus b)
    (once : Once s.bus s.jobs s.log x) : Once b jobs (d :: s.log) x := by
  have hops := l.hops_le x
  cases h with
  | aside gone come spares replies deed jobs come_idle gone_idle =>
    refine Once.step gone come (once.perm jobs) hops ?_ spares.trackers_eq ?_
    · rw [countP_delivers_of_isIdle come_idle]
      exact Nat.zero_le _
    · cases d with
      | take l =>
        cases l with
        | tracker y p => exact absurd rfl (deed y p)
        | _ => rfl
      | _ => rfl
  | @writes y t delivery b₁ _ a moved persists call =>
    have hc := Bus.Calls.of_turn call (.persist b₁ y)
    refine once.dispatch moved (hc.evolves.hops_le x) ?_
    have ht := hc.trackers_eq.trans moved.trackers_eq
    simp only [deliveries, ht, List.countP_cons, Job.delivers, Deed.tracks, beq_iff_eq]
    split <;> simp
    omega
  | @delivers y t b₁ b₂ _ come moved ready spares come_idle =>
    have hc := Bus.Calls.of_ready ready
    have he : Bus.Evolves b₁ b := hc.evolves.trans (spares.toEvolves.from_eq rfl)
    refine once.dispatch moved (he.hops_le x) ?_
    rw [deliveries, spares.trackers_tracked, hc.trackers_eq, moved.trackers_eq, List.countP_append,
      List.countP_append, countP_delivers_of_isIdle come_idle]
    simp only [deliveries, List.countP_cons, List.countP_nil, Launch.tracks, Deed.tracks,
      beq_iff_eq]
    split <;> simp
    omega
  | @refused y t b₁ b₂ _ e moved persists call stirs =>
    have hc := Bus.Calls.of_turn call (.persist b₁ y)
    have ht := stirs.trackers_eq.trans (hc.trackers_eq.trans moved.trackers_eq)
    exact Once.step [] [] once hops (Nat.le_refl _) ht rfl
  | @writing y t delivery a a' _ others job call =>
    have hc := Bus.Calls.of_turn call (.resumeAccess s.bus a)
    exact Once.step [_] [_] (once.perm job) hops (Nat.le_refl _) hc.trackers_eq rfl
  | @written y t delivery a b₁ _ v come others job call spares come_idle =>
    have hc := Bus.Calls.of_turn call (.resumeAccess s.bus a)
    have once := once.perm job
    unfold Once deliveries at once ⊢
    rw [spares.trackers_tracked, hc.trackers_eq, List.countP_append, List.countP_append,
      countP_delivers_of_isIdle come_idle]
    simp only [List.countP_cons, List.countP_nil, Job.delivers, Launch.tracks, Deed.tracks,
      beq_iff_eq] at once ⊢
    simp only [Bool.false_eq_true, if_false]
    omega
  | @unwritten y t delivery a b₁ _ e others job call stirs =>
    have hc := Bus.Calls.of_turn call (.resumeAccess s.bus a)
    have ht := stirs.trackers_eq.trans hc.trackers_eq
    exact Once.step [_] [] (once.perm job) hops (Nat.zero_le _) ht rfl
  | @replies y _ b₁ replies moved persists =>
    have ht := (Bus.Calls.persist b₁ y).trackers_eq.trans moved.trackers_eq
    exact Once.step [] _ once hops (Nat.le_of_eq (countP_jobs (fun _ => rfl) _)) ht
      (by cases d <;> first | rfl | exact replies.elim)
  | @replying y a others job =>
    have ht := (Bus.Calls.resumeAccess s.bus a).trackers_eq
    exact Once.step [_] _ (once.perm job) hops (Nat.le_of_eq (countP_jobs (fun _ => rfl) _)) ht rfl
  | retrieves id =>
    have ht := (Bus.Calls.retrieve s.bus id).trackers_eq
    exact Once.step [] _ once hops (Nat.le_of_eq (countP_jobs (fun _ => rfl) _)) ht rfl
  | @retrieving a others job =>
    have ht := (Bus.Calls.resumeAccess s.bus a).trackers_eq
    exact Once.step [_] _ (once.perm job) hops (Nat.le_of_eq (countP_jobs (fun _ => rfl) _)) ht rfl
  | @tracks y persisted before after _ come launched follows =>
    have ht := (Bus.trackers_launched launched).countP_eq (·.tracks x)
    unfold Once deliveries at once ⊢
    rw [ht] at once
    rw [follows.trackers_eq, List.countP_append, follows.not_delivers]
    simp only [List.countP_cons, Launch.tracks, Deed.tracks, beq_iff_eq] at once ⊢
    omega
  | watching job follows =>
    exact Once.step [_] _ (once.perm job) hops
      (by rw [follows.not_delivers]; exact Nat.zero_le _) follows.trackers_eq rfl
  | @removing y a a' others _ job call =>
    have hc := Bus.Calls.of_turn call (.resumeAccess s.bus a)
    exact Once.step [_] [_] (once.perm job) hops (Nat.le_refl _) hc.trackers_eq rfl
  | @removed y a others b₁ r job call =>
    have hc := Bus.Calls.of_turn call (.resumeAccess s.bus a)
    have ht : (b₁.untrack y).trackers = s.bus.trackers := hc.trackers_eq
    exact Once.step [_] [] (once.perm job) hops (Nat.zero_le _) ht rfl

/-- Once a tracker of `x` is to set out or has done so nobody delivers `x` any more. -/
theorem Once.not_delivers {log : List Deed} (h : Once b jobs log x)
    (tracker : ∃ p, .tracker x p ∈ b.trackers ∨ .take (.tracker x p) ∈ log) :
    ∀ j ∈ jobs, j.delivers x = false := by
  intro j hj
  cases hd : j.delivers x with
  | false => rfl
  | true =>
    have hj : 0 < jobs.countP (·.delivers x) := List.countP_pos_iff.2 ⟨j, hj, hd⟩
    unfold Once deliveries at h
    obtain ⟨p, hp | hp⟩ := tracker
    · have ht : 0 < b.trackers.countP (·.tracks x) :=
        List.countP_pos_iff.2 ⟨_, hp, by simp [Launch.tracks]⟩
      omega
    · have ht : 0 < log.countP (·.tracks x) :=
        List.countP_pos_iff.2 ⟨_, hp, by simp [Deed.tracks, Launch.tracks]⟩
      omega

theorem Fresh.once (h : s.Fresh) (x : Nat) : Once s.bus s.jobs s.log x := by
  simp [Once, deliveries, h.no_jobs, h.no_log, Bus.trackers, Bus.duties, h.no_launches]

/-- Along every run `x` is delivered once at most. -/
theorem Runs.once (fresh : s₀.Fresh) (willing : s₀.bus.Willing) (h : Runs P s₀ s) (x : Nat) :
    Once s.bus s.jobs s.log x := by
  induction h with
  | refl => exact fresh.once x
  | step run step _ ih =>
    obtain ⟨affair, later⟩ := run.affair fresh willing step
    rw [step.log_eq]
    exact affair.once later ih

/-- A tracker is at work that was at work before, or it sets out. -/
theorem Affair.tracking {t : Tracking} (h : s.Affair d b jobs) (ht : .tracking t ∈ jobs) :
    (∃ u, .tracking u ∈ s.jobs ∧ u.exchange = t.exchange) ∨
      ∃ p, d = .take (.tracker t.exchange p) := by
  -- nothing has come that follows an exchange
  have old (gone come : List Job) {others : List Job} (job : s.jobs.Perm (gone ++ others))
      (ht : .tracking t ∈ come ++ others) (hc : .tracking t ∉ come) :
      (∃ u, .tracking u ∈ s.jobs ∧ u.exchange = t.exchange) ∨
        ∃ p, d = .take (.tracker t.exchange p) :=
    have ht := (List.mem_append.1 ht).resolve_left hc
    .inl ⟨t, job.mem_iff.2 (List.mem_append_right _ ht), rfl⟩
  have idle {come : List Job} (h : ∀ j ∈ come, j.isIdle = true) : .tracking t ∉ come :=
    fun hc => nomatch h _ hc
  cases h with
  | aside gone come _ _ _ job come_idle => exact old gone come job ht (idle come_idle)
  | writes => exact old [] [_] (.refl _) ht (by simp)
  | delivers _ _ _ come_idle => exact old [] _ (.refl _) ht (idle come_idle)
  | refused => exact old [] [] (.refl _) ht List.not_mem_nil
  | writing job => exact old [_] [_] job ht (by simp)
  | written job _ _ come_idle => exact old [_] _ job ht (idle come_idle)
  | unwritten job | removed job => exact old [_] [] job ht List.not_mem_nil
  | replies | retrieves => exact old [] _ (.refl _) ht (by simp [Turn.mem_jobs])
  | replying job | retrieving job => exact old [_] _ job ht (by simp [Turn.mem_jobs])
  | @tracks y persisted _ _ _ come _ follows =>
    by_cases hc : .tracking t ∈ come
    · exact .inr ⟨persisted, by rw [follows.exchange_of_mem hc]⟩
    · exact old [] come (.refl _) ht hc
  | @watching _ _ _ _ _ come job follows =>
    by_cases hc : .tracking t ∈ come
    · exact .inl ⟨_, job.mem_iff.2 List.mem_cons_self, (follows.exchange_of_mem hc).symm⟩
    · exact old [_] come job ht hc
  | @removing y a a' others _ job =>
    rcases List.mem_cons.1 ht with e | ht
    · cases e
      exact .inl ⟨_, job.mem_iff.2 List.mem_cons_self, rfl⟩
    · exact old [_] [] job ht List.not_mem_nil

/-- Along every run the trackers at work have set out. -/
theorem Runs.tracking {t : Tracking} (fresh : s₀.Fresh) (willing : s₀.bus.Willing)
    (h : Runs P s₀ s) (ht : .tracking t ∈ s.jobs) : ∃ p, .take (.tracker t.exchange p) ∈ s.log := by
  induction h generalizing t with
  | refl =>
    rw [fresh.no_jobs] at ht
    cases ht
  | step run step _ ih =>
    rw [step.log_eq]
    obtain ⟨u, hu, e⟩ | ⟨p, rfl⟩ := (run.affair fresh willing step).1.tracking ht
    · obtain ⟨p, hp⟩ := ih hu
      exact ⟨p, List.mem_cons_of_mem _ (e ▸ hp)⟩
    · exact ⟨p, List.mem_cons_self⟩

end Traffic
end ServiceBus
