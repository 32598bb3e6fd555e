import ServiceBus.Proofs.Bus.Courses

/-!
# Who hands a reply back

A dispatched exchange is tended by one party at most: by its send as long as that is pending, or by
the processor if nobody awaits that (`tending`). Whoever tends an exchange may hand it back, and has
then done with it. So when the reply of an exchange is back while its send is still pending, its
provider has responded (`Trace.tended`).
-/

namespace ServiceBus

/-- The job tends `x`. -/
def Job.tends (x : Nat) : Job → Bool
  | .sending (.persisting y _ _ _) | .sending (.processing y _ _ _) | .sending (.queueing y _ _ _)
  | .sending (.replying y _ _) => y == x
  | .processing _ _ y awaited => !awaited && y == x
  | _ => false

def Launch.tends (x : Nat) : Launch → Bool
  | .processor _ _ y awaited => !awaited && y == x
  | _ => false

theorem Job.tends_sending {c : Sending} {x : Nat} : (Job.sending c).tends x = true ↔ c.Concerns x := by
  cases c <;> simp [Job.tends, Sending.Concerns]

theorem Job.not_tends_of_isPlain {j : Job} (h : j.isPlain = true) (x : Nat) : j.tends x = false := by
  match j, h with
  | .watching _, _ | .accepting _, _ | .draining _, _ | .shuttingDown _, _ | .closing _, _ => rfl

namespace Bus
variable {b b' b'' : Bus} {x y : Nat} {come jobs others : List Job}

/-- How many parties tend `x`. -/
def tending (b : Bus) (jobs : List Job) (x : Nat) : Nat :=
  jobs.countP (·.tends x) + b.duties.countP (·.tends x)

theorem tending_congr (h : b'.duties = b.duties) (jobs : List Job) (x : Nat) :
    b'.tending jobs x = b.tending jobs x := by
  rw [tending, h, tending]

theorem tending_append (b : Bus) (come jobs : List Job) (x : Nat) :
    b.tending (come ++ jobs) x = jobs.countP (·.tends x) + b.tending come x := by
  simp only [tending, List.countP_append]
  omega

theorem tending_cons (b : Bus) (j : Job) (jobs : List Job) (x : Nat) :
    b.tending (j :: jobs) x = b.tending jobs x + if j.tends x then 1 else 0 := by
  simp only [tending, List.countP_cons]
  omega

theorem tending_perm (b : Bus) (h : jobs.Perm others) (x : Nat) :
    b.tending jobs x = b.tending others x := by
  rw [tending, h.countP_eq, tending]

theorem tending_nil_le (b : Bus) (jobs : List Job) (x : Nat) : b.tending [] x ≤ b.tending jobs x :=
  Nat.add_le_add_right (Nat.zero_le _) _

theorem tending_idle (b : Bus) (h : ∀ j ∈ come, ∀ x, j.tends x = false) (x : Nat) :
    b.tending come x = b.tending [] x := by
  have none : come.countP (·.tends x) = 0 := List.countP_eq_zero.2 fun j hj => by simp [h j hj x]
  rw [tending, none, tending, List.countP_nil]

theorem tending_launched {l : Launch} {before after : List Launch}
    (launched : b.launched = before ++ l :: after) (jobs : List Job) (x : Nat) :
    b.tending jobs x =
      (b.leaving (before ++ after)).tending jobs x + if l.tends x then 1 else 0 := by
  have duty : l.isDuty = false → l.tends x = false := by cases l <;> simp [Launch.isDuty, Launch.tends]
  simp only [tending, duties, leaving, launched, List.filter_append, List.countP_append,
    List.filter_cons]
  cases hl : l.isDuty with
  | true =>
    simp only [if_true, List.countP_cons]
    omega
  | false => simp [duty hl]

/-! ### Turns of those who tend -/

/-- What a turn about `y` may come to: nothing has changed hands and at most one more party tends
`y`, or `y` may have been handed back and there is nobody more. -/
inductive Tends (b : Bus) (y : Nat) : Bus → List Job → Prop
  | on {b' : Bus} {come : List Job}
    (hops : ∀ x, x < b.exchanges.size → (b'.exchange x).hops = (b.exchange x).hops)
    (about : ∀ j ∈ come, ∀ x, j.tends x = true → x = y)
    (le : ∀ x, b'.tending come x ≤ b.tending [] x + if y = x then 1 else 0) : Tends b y b' come
  | back {b' : Bus} (others : ∀ x, x ≠ y → (b'.exchange x).hops = (b.exchange x).hops)
    (le : ∀ x, b'.tending [] x ≤ b.tending [] x) : Tends b y b' []

namespace Tends

theorem of_stirs (h : Stirs b b') : Tends b y b' [] := by
  refine .on h.hops_eq (by simp) fun x => ?_
  rw [tending_congr (duties_of_ledger h.ledger_eq)]
  exact Nat.le_add_right _ _

theorem of_handBack (h : Moved b y .handBack b') : Tends b y b' [] := by
  refine .back (fun x hx => by rw [h.others_eq x hx]) fun x => ?_
  exact Nat.le_of_eq (tending_congr (duties_of_ledger h.ledger_eq) [] x)

/-- A turn that leaves at most a pending send of `y`. -/
theorem of_pending {r : Turn Sending SendResult} (h : Stirs b b')
    (concerns : ∀ c, r = .waiting c → c.Concerns y) : Tends b y b' (r.jobs .sending) := by
  match r with
  | .ended _ => exact of_stirs h
  | .waiting c =>
    have about (x : Nat) (tends : (Job.sending c).tends x = true) : x = y :=
      (concerns c rfl).eq (Job.tends_sending.1 tends)
    refine .on h.hops_eq (fun j hj x => ?_) fun x => ?_
    · obtain rfl := List.mem_singleton.1 hj
      exact about x
    · rw [tending_congr (duties_of_ledger h.ledger_eq)]
      by_cases hx : y = x
      · simp only [tending, Turn.jobs, List.countP_singleton, List.countP_nil, if_pos hx]
        split <;> omega
      · have idle : (Job.sending c).tends x = false :=
          Bool.eq_false_iff.2 fun tends => hx (about x tends).symm
        simp [tending, Turn.jobs, idle]

theorem from_same (h : Tends b' y b'' come) (exchanges : b'.exchanges = b.exchanges)
    (le : ∀ x, b'.tending [] x ≤ b.tending [] x) : Tends b y b'' come := by
  have same (x : Nat) : b'.exchange x = b.exchange x := by
    unfold exchange
    rw [exchanges]
  cases h with
  | on hops about le' =>
    refine .on (fun x hx => ?_) about fun x => Nat.le_trans (le' x) (Nat.add_le_add_right (le x) _)
    rw [hops x (exchanges ▸ hx), same]
  | back others le' =>
    exact .back (fun x hx => by rw [others x hx, same]) fun x => Nat.le_trans (le' x) (le x)

theorem from_calls (h : Tends b' y b'' come) (calls : Calls b b') : Tends b y b'' come :=
  h.from_same calls.exchanges_eq fun x => Nat.le_of_eq (tending_congr calls.duties_eq [] x)

theorem awaitProcessor (h : b.Dispatched y) (run deadline : Nat) :
    Tends b y (b.awaitProcessor y run deadline).1
      ((b.awaitProcessor y run deadline).2.jobs .sending) := by
  obtain ⟨b', r, e, -, stirs | moved⟩ | ⟨seen, -, e⟩ :=
    awaitProcessor_cases h.lt_size h.sent run deadline <;> rw [e]
  · exact of_stirs stirs
  · exact of_handBack moved
  · refine of_pending (.refl b) fun c hc => ?_
    obtain rfl := Turn.waiting.inj hc
    rfl

theorem tending_started (b : Bus) (y n : Nat) (awaited : Bool) (x : Nat) :
    (b.started y n awaited).tending [] x =
      b.tending [] x + if awaited = false ∧ y = x then 1 else 0 := by
  simp only [tending, duties_started, List.countP_append, List.countP_cons, List.countP_nil,
    Launch.tends]
  simp

theorem deliver (h : b.Dispatched y) (t : Endpoint) (d : Delivery) :
    Tends b y (b.deliver y t d).1 ((b.deliver y t d).2.jobs .sending) := by
  obtain ⟨n, e⟩ | ⟨n, deadline, e⟩ | ⟨stirs, queues⟩ := deliver_cases b y t d
  · rw [e]
    refine .on (fun _ _ => rfl) (by simp [Turn.jobs]) fun x => ?_
    show (b.started y n false).tending [] x ≤ _
    simp [tending_started]
  · rw [e]
    have started : (b.started y n true).Dispatched y := ⟨h.lt_size, h.sent⟩
    exact (awaitProcessor started _ _).from_same rfl fun x => by simp [tending_started]
  · refine (of_pending stirs fun c hc => (queues c hc).concerns).from_same rfl fun x => ?_
    simp [tending, duties_track, Launch.tends]

theorem persisted (h : b.Dispatched y) (t : Endpoint) (d : Delivery)
    (r : Turn Access StoreAnswer) :
    Tends b y (b.persisted y t d r).1 ((b.persisted y t d r).2.jobs .sending) := by
  match r with
  | .waiting a =>
    refine of_pending (.refl b) fun c hc => ?_
    obtain rfl := Turn.waiting.inj hc
    rfl
  | .ended (.ok _) => exact deliver h t d
  | .ended (.error _) => exact of_stirs (.failQuietly b y _)

theorem resumeSend {c : Sending} (concerns : c.Concerns y) (h : b.Dispatched y) :
    Tends b y (b.resumeSend c).1 ((b.resumeSend c).2.jobs .sending) := by
  cases c with
  | persisting z t d a =>
    obtain rfl := concerns
    have calls := Calls.resumeAccess b a
    exact (persisted (h.evolves calls.evolves) t d _).from_calls calls
  | processing z run deadline seen =>
    obtain rfl := concerns
    exact awaitProcessor h run deadline
  | queueing z k q ticket =>
    obtain rfl := concerns
    exact of_pending (.enqueue b z k q (some ticket)) fun c hc => (queues_enqueue hc).concerns
  | replying z deadline seen =>
    obtain rfl := concerns
    exact of_pending (.awaitReply b z deadline) fun c hc => (queues_awaitReply hc).concerns
  | responding => exact concerns.elim

end Tends
end Bus

/-! ### Steps -/

/-- The provider of `x` takes its reply back in this step. -/
def Transition.TakesBack (t : Transition) (x : Nat) : Prop :=
  t.deed.Replies t.before.bus x ∧ (t.before.bus.exchange x).hops = 1 ∧
    (t.after.bus.exchange x).hops = 2

theorem Bus.Moved.takes_back {b b' : Bus} {x : Nat} (h : Moved b x .handBack b') :
    (b.exchange x).hops = 1 ∧ (b'.exchange x).hops = 2 := by
  obtain ⟨y, moves, same⟩ := h.moves
  rw [same]
  cases moves with
  | handBack owner hops reply => exact ⟨hops, rfl⟩

namespace Traffic
variable {s s' s₀ : Traffic} {d : Deed} {b : Bus} {jobs : List Job} {x : Nat}
  {l : List Transition} {P : Traffic → Deed → Traffic → Prop}
open Bus

/-- What a step comes to for those who tend exchanges. -/
inductive Care (s : Traffic) : Deed → Bus → List Job → Prop
  /-- Nothing changes hands, and nobody begins to tend anything. -/
  | aside {d : Deed} {b : Bus} {jobs : List Job}
    (hops : ∀ x, x < s.bus.exchanges.size → (b.exchange x).hops = (s.bus.exchange x).hops)
    (le : ∀ x, b.tending jobs x ≤ s.bus.tending s.jobs x)
    (old : ∀ c x, .sending c ∈ jobs → c.Concerns x → .sending c ∈ s.jobs) : Care s d b jobs
  /-- A provider responds. -/
  | returns {y : Nat} {d : Deed} {b₁ b : Bus} {come : List Job} (replies : d.Replies s.bus y)
    (moved : Moved s.bus y .handBack b₁) (calls : Calls b₁ b)
    (idle : ∀ j ∈ come, ∀ x, j.tends x = false) : Care s d b (come ++ s.jobs)
  | dispatches {y : Nat} {t : Endpoint} {b₁ b : Bus} {come : List Job}
    (moved : Moved s.bus y (.dispatch t) b₁) (tends : Tends b₁ y b come) :
    Care s (.ask (.send y)) b (come ++ s.jobs)
  /-- The one who tends `y` goes on or is through, a processor in any case the latter. -/
  | turns {y : Nat} {j : Job} {d : Deed} {b : Bus} {come others : List Job}
    (tends : j.tends y = true) (job : s.jobs.Perm (j :: others)) (turn : Tends s.bus y b come)
    (through : come = [] ∨ ∃ c, j = .sending c) : Care s d b (come ++ others)

namespace Care

/-- A turn that hands nothing over and leaves nobody who tends anything. -/
theorem of_jobs (gone come : List Job) {others : List Job} (job : s.jobs.Perm (gone ++ others))
    (idle : ∀ j ∈ come, ∀ x, j.tends x = false)
    (hops : ∀ x, x < s.bus.exchanges.size → (b.exchange x).hops = (s.bus.exchange x).hops)
    (le : ∀ x, b.tending [] x ≤ s.bus.tending [] x) : s.Care d b (come ++ others) := by
  refine .aside hops (fun x => ?_) fun c x hc concerns => ?_
  · rw [s.bus.tending_perm job, tending_append, tending_append, tending_idle b idle]
    exact Nat.add_le_add_left (Nat.le_trans (le x) (tending_nil_le s.bus gone x)) _
  · rcases List.mem_append.1 hc with hc | hc
    · cases (idle _ hc x).symm.trans (Job.tends_sending.2 concerns)
    · exact job.mem_iff.2 (List.mem_append_right _ hc)

theorem of_calls (gone come : List Job) {others : List Job} (job : s.jobs.Perm (gone ++ others))
    (idle : ∀ j ∈ come, ∀ x, j.tends x = false) (calls : Calls s.bus b) :
    s.Care d b (come ++ others) :=
  .of_jobs gone come job idle (fun x _ => by rw [calls.exchange_eq x]) fun x =>
    Nat.le_of_eq (tending_congr calls.duties_eq [] x)

theorem of_pursues (gone : List Job) {y : Nat} {b₀ : Bus} {come others : List Job}
    (job : s.jobs.Perm (gone ++ others)) (pursues : Pursues b₀ s.jobs y b come)
    (exchanges : b₀.exchanges = s.bus.exchanges)
    (le : ∀ x, b₀.tending [] x ≤ s.bus.tending [] x) : s.Care d b (come ++ others) := by
  have calls {b' : Bus} (calls : Calls b₀ b') :
      (∀ x, (b'.exchange x).hops = (s.bus.exchange x).hops) ∧
        ∀ x, b'.tending [] x ≤ s.bus.tending [] x :=
    ⟨fun x => by rw [calls.exchange_eq, exchange, exchange, exchanges],
      fun x => Nat.le_trans (Nat.le_of_eq (tending_congr calls.duties_eq [] x)) (le x)⟩
  cases pursues with
  | on h =>
    exact .of_jobs gone [_] job (by simp [Job.tends]) (fun x _ => (calls h).1 x) (calls h).2
  | off h => exact .of_jobs gone [] job (by simp) (fun x _ => (calls h).1 x) (calls h).2

theorem respond {y : Nat} (hy : y < s.bus.exchanges.size) (replies : d.Replies s.bus y) :
    s.Care d (s.bus.respond y).1 ((s.bus.respond y).2.jobs .sending ++ s.jobs) := by
  obtain ⟨r, h⟩ | ⟨b', moved, h⟩ := respond_cases hy <;> rw [h]
  · exact .of_calls [] [] (.refl _) (by simp) (.refl _)
  split
  · refine .returns replies moved (.persist b' y) fun j hj x => ?_
    rw [jobs_replied] at hj
    obtain ⟨a, -, rfl⟩ := Turn.mem_jobs.1 hj
    rfl
  · exact .returns replies moved (.refl b') (by simp [Turn.jobs])

theorem dispatch {y : Nat} {selector : Selector} (hy : y < s.bus.exchanges.size) (t : Endpoint)
    (dl : Delivery) : s.Care (.ask (.send y)) ({ s.bus with selector }.dispatch y t dl).1
      (({ s.bus with selector }.dispatch y t dl).2.jobs .sending ++ s.jobs) := by
  obtain ⟨r, h⟩ | ⟨b', moved, h⟩ := dispatch_cases (b := { s.bus with selector }) hy t dl <;> rw [h]
  · exact .of_jobs [] [] (.refl _) (by simp) (fun _ _ => rfl) fun _ => Nat.le_refl _
  have dispatched := moved.dispatched
  split
  · have calls := Calls.persist b' y
    exact .dispatches moved.from_selector
      ((Tends.persisted (dispatched.evolves calls.evolves) t dl _).from_calls calls)
  · exact .dispatches moved.from_selector (.deliver dispatched t dl)

end Care

theorem Event.care (h : s.Event d b jobs) (ordered : s.bus.Orderly s.jobs) : s.Care d b jobs := by
  have dispatched {j : Job} {y : Nat} (hj : j ∈ s.jobs) (serves : j.Serves y) :
      s.bus.Dispatched y := ordered y (.inl ⟨j, hj, serves⟩)
  have idle {γ ρ : Type} {f : γ → Job} (hf : ∀ c x, (f c).tends x = false) (t : Turn γ ρ) :
      ∀ j ∈ t.jobs f, ∀ x, j.tends x = false := fun j hj x => by
    obtain ⟨c, -, rfl⟩ := Turn.mem_jobs.1 hj
    exact hf c x
  have ledger {b' : Bus} (h : b'.ledger = s.bus.ledger) (x : Nat) :
      b'.tending [] x ≤ s.bus.tending [] x :=
    Nat.le_of_eq (tending_congr (duties_of_ledger h) [] x)
  cases h with
  | plain gone come deed stirs job come_plain =>
    exact .of_jobs gone come job (fun j hj => Job.not_tends_of_isPlain (come_plain j hj))
      stirs.hops_eq (ledger stirs.ledger_eq)
  | @send y hy =>
    obtain ⟨b', r, stirs, -, h⟩ | ⟨owner, h⟩ | ⟨selector, t, dl, -, h⟩ := send_cases s.bus y <;>
      rw [h]
    · exact .of_jobs [] [] (.refl _) (by simp) stirs.hops_eq (ledger stirs.ledger_eq)
    · exact .respond hy ⟨rfl, owner⟩
    · exact .dispatch hy t dl
  | respond hy => exact .respond hy rfl
  | @resumeSend c others job =>
    have hc := job.mem_iff.2 List.mem_cons_self
    cases c with
    | responding x a =>
      refine .of_calls [_] _ job ?_ (.resumeAccess s.bus a)
      show ∀ j ∈ ((s.bus.resumeAccess a).1.replied x (s.bus.resumeAccess a).2).jobs .sending, _
      rw [jobs_replied]
      exact idle (fun _ _ => rfl) _
    | _ =>
      exact .turns (beq_self_eq_true _) job (.resumeSend rfl (dispatched hc rfl)) (.inr ⟨_, rfl⟩)
  | retrieve id =>
    exact .of_calls [] _ (.refl _) (idle (fun _ _ => rfl) _) (.retrieve s.bus id)
  | @resumeRetrieve a others job =>
    exact .of_calls [_] _ job (idle (fun _ _ => rfl) _) (.resumeAccess s.bus a)
  | @track x persisted before others launched =>
    have hx := ordered x (.inr ⟨_, mem_duties_of_launched launched rfl, rfl⟩)
    have follows := Bus.follows (s.bus.leaving (before ++ others)) x persisted
    refine .of_pursues [] (.refl _) (follows.pursues (hx.evolves (.of_eq rfl)) _) rfl fun y => ?_
    rw [tending_launched launched]
    exact Nat.le_add_right _ _
  | @resumeTracking t others job =>
    have ht := job.mem_iff.2 List.mem_cons_self
    exact .of_pursues [_] job (pursues_resumeTracking (dispatched ht rfl) ht) rfl
      fun _ => Nat.le_refl _
  | @process run n x awaited before others launched =>
    refine .aside (fun _ _ => rfl) (fun y => ?_) fun c y hc _ => ?_
    · have same : ([.processing run n x awaited] : List Job).countP (·.tends y) =
          if (Launch.processor run n x awaited).tends y then 1 else 0 := by
        simp [Launch.tends, Job.tends, List.countP_cons]
      rw [tending_launched launched, ← same]
      simp only [tending, List.countP_cons, List.countP_nil]
      omega
    · exact (List.mem_cons.1 hc).resolve_left nofun
  | @finish run n x awaited others o job =>
    have hx := dispatched (job.mem_iff.2 List.mem_cons_self) rfl
    cases awaited with
    | true =>
      exact .of_jobs [_] [] job (by simp) (fun _ _ => rfl) fun _ => Nat.le_refl _
    | false =>
      refine .turns (j := .processing run n x false) (beq_self_eq_true x) job ?_ (.inl rfl)
      unfold Bus.finish
      cases o with
      | panicked => exact .of_stirs (.refl _)
      | returned | refused =>
        exact (settle_turn hx.lt_size run _).elim .of_stirs .of_handBack
  | serve => exact .of_jobs [] [] (.refl _) (by simp) (fun _ _ => rfl) fun _ => Nat.le_refl _

/-! ### One party at a time -/

/-- Every exchange is tended by one party at most, and by none before it has been dispatched. -/
def TendedOnce (b : Bus) (jobs : List Job) : Prop :=
  ∀ x, b.tending jobs x ≤ min (b.exchange x).hops 1

theorem TendedOnce.perm {others : List Job} (h : TendedOnce b jobs) (job : jobs.Perm others) :
    TendedOnce b others := fun x => b.tending_perm job x ▸ h x

theorem TendedOnce.alone {j : Job} {others : List Job} (h : TendedOnce b (j :: others))
    (hj : j.tends x = true) : ∀ k ∈ others, k.tends x = false := by
  intro k hk
  rw [Bool.eq_false_iff]
  intro tends
  have more : 0 < others.countP (·.tends x) := List.countP_pos_iff.2 ⟨k, hk, tends⟩
  have once := h x
  rw [tending_cons, if_pos hj, tending] at once
  omega

theorem TendedOnce.sent {j : Job} (h : TendedOnce b jobs) (hj : j ∈ jobs) (tends : j.tends x = true) :
    (b.exchange x).hops ≠ 0 := by
  intro unsent
  have some : 0 < jobs.countP (·.tends x) := List.countP_pos_iff.2 ⟨j, hj, tends⟩
  have once := h x
  rw [unsent, tending] at once
  omega

theorem Care.once (h : s.Care d b jobs) (evolves : Evolves s.bus b)
    (once : TendedOnce s.bus s.jobs) : TendedOnce b jobs := by
  intro x
  have hops := evolves.hops_le x
  have before := once x
  cases h with
  | aside _ le =>
    have le := le x
    omega
  | @returns y _ b₁ _ come replies moved calls idle =>
    have same : b.tending [] x = s.bus.tending [] x :=
      (tending_congr calls.duties_eq [] x).trans (tending_congr (duties_of_ledger moved.ledger_eq) [] x)
    rw [tending_append, tending_idle b idle, same, ← tending_append, List.nil_append]
    omega
  | @dispatches y t b₁ _ come moved tends =>
    have same : b₁.tending [] x = s.bus.tending [] x :=
      tending_congr (duties_of_ledger moved.ledger_eq) [] x
    obtain ⟨unsent, sent⟩ := moved.takes_hop
    rw [← List.nil_append s.jobs, tending_append] at before
    rw [tending_append]
    cases tends with
    | on hops' about le =>
      have le := le x
      by_cases hx : y = x
      · -- nobody has tended `y` before it was dispatched
        subst hx
        have hops' := hops' y (Nat.lt_of_lt_of_le moved.lt_size moved.size_le)
        rw [if_pos rfl] at le
        omega
      · rw [if_neg hx] at le
        omega
    | back others le =>
      have le := le x
      omega
  | @turns y k _ _ come others tends job turn =>
    rw [s.bus.tending_perm job, tending_cons, ← List.nil_append others, tending_append] at before
    rw [tending_append]
    cases turn with
    | on hops' about le =>
      have le := le x
      by_cases hx : y = x
      · subst hx
        rw [if_pos tends] at before
        rw [if_pos rfl] at le
        omega
      · rw [if_neg hx] at le
        omega
    | back _ le =>
      have le := le x
      omega

/-! ### What has come back -/

/-- If a send of `x` is pending, the reply of `x` is not back, or its provider has taken it back. -/
def Returned (l : List Transition) (s : Traffic) : Prop :=
  ∀ c x, .sending c ∈ s.jobs → c.Concerns x →
    (s.bus.exchange x).hops = 1 ∨ ∃ u ∈ l, u.TakesBack x

theorem Care.returned (h : s.Care d s'.bus s'.jobs) (ordered : s.bus.Orderly s.jobs)
    (once : TendedOnce s.bus s.jobs) (returned : Returned l s) : Returned (⟨s, d, s'⟩ :: l) s' := by
  intro c x hc concerns
  have tends : (Job.sending c).tends x = true := Job.tends_sending.2 concerns
  -- a send of `x` was pending before, and `x` has not been handed over meanwhile
  have kept {e : Sending} (he : .sending e ∈ s.jobs) (concerns : e.Concerns x)
      (hops : (s'.bus.exchange x).hops = (s.bus.exchange x).hops) :
      (s'.bus.exchange x).hops = 1 ∨ ∃ u ∈ ⟨s, d, s'⟩ :: l, u.TakesBack x := by
    rw [hops]
    exact (returned e x he concerns).imp_right fun ⟨u, hu, back⟩ => ⟨u, .tail _ hu, back⟩
  have lt_size {e : Sending} (he : .sending e ∈ s.jobs) (concerns : e.Concerns x) :
      x < s.bus.exchanges.size := (ordered x (.inl ⟨.sending e, he, concerns⟩)).lt_size
  generalize hb : s'.bus = b at h kept ⊢
  generalize hj : s'.jobs = jobs at h hc
  cases h with
  | aside hops _ old =>
    have hc := old c x hc concerns
    exact kept hc concerns (hops x (lt_size hc concerns))
  | @returns y _ b₁ _ come replies moved calls idle =>
    have hc := (List.mem_append.1 hc).resolve_left fun hc => by
      cases (idle _ hc x).symm.trans tends
    have same := calls.exchange_eq x
    by_cases hx : x = y
    · subst hx
      obtain ⟨before, after⟩ := moved.takes_back
      rw [← same] at after
      exact .inr ⟨_, List.mem_cons_self, replies, before, hb ▸ after⟩
    · exact kept hc concerns (by rw [same, moved.others_eq x hx])
  | @dispatches y t b₁ _ come moved turn =>
    obtain ⟨unsent, sent⟩ := moved.takes_hop
    cases turn with
    | on hops about =>
      by_cases hx : x = y
      · subst hx
        exact .inl ((hops x (Nat.lt_of_lt_of_le moved.lt_size moved.size_le)).trans sent)
      · have hc := (List.mem_append.1 hc).resolve_left fun hc => hx (about _ hc x tends)
        have hops := hops x (Nat.lt_of_lt_of_le (lt_size hc concerns) moved.size_le)
        exact kept hc concerns (by rw [hops, moved.others_eq x hx])
    | back others =>
      have hx : x ≠ y := fun e => once.sent hc tends (e ▸ unsent)
      exact kept hc concerns (by rw [others x hx, moved.others_eq x hx])
  | @turns y j _ _ come others tends' job turn through =>
    have hj := job.mem_iff.2 List.mem_cons_self
    have old (hc : .sending c ∈ others) : .sending c ∈ s.jobs := job.mem_iff.2 (.tail _ hc)
    cases turn with
    | on hops about =>
      rcases List.mem_append.1 hc with hc | hc
      · obtain rfl := about _ hc x tends
        obtain rfl | ⟨e, rfl⟩ := through
        · cases hc
        · have concerns := Job.tends_sending.1 tends'
          exact kept hj concerns (hops x (lt_size hj concerns))
      · exact kept (old hc) concerns (hops x (lt_size (old hc) concerns))
    | back spared =>
      have hx : x ≠ y := fun e => by
        subst e
        have alone := (once.perm job).alone tends' _ hc
        cases alone.symm.trans tends
      exact kept (old hc) concerns (by rw [spared x hx])

/-! ### Runs -/

/-- Whenever a send of `x` is pending along a run, the reply of `x` is not back, or its provider has
taken it back. -/
theorem Trace.tended (fresh : s₀.Fresh) (h : Trace P s₀ l s) :
    TendedOnce s.bus s.jobs ∧ Returned l s := by
  induction h with
  | start =>
    refine ⟨fun x => ?_, fun c x hc => ?_⟩
    · simp [tending, duties, fresh.no_jobs, fresh.no_launches]
    · rw [fresh.no_jobs] at hc
      cases hc
  | step trace step _ ih =>
    have ordered := trace.course.orderly fresh.orderly
    have care := step.event.care ordered
    exact ⟨care.once step.evolves ih.1, care.returned ordered ih.1 ih.2⟩

end Traffic
end ServiceBus
