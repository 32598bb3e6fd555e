import ServiceBus.Proofs.Bus.Agreement
import ServiceBus.Proofs.Bus.Dispatched

/-!
# No exchange is left with a processor that has come to its end

Once a processor has come to its end and nobody can go on, its exchange is settled: it has ended, or
it is back with the consumer with a reply (`settled_of_finished`). The sender sees to it who awaits
the processor, and otherwise the bus does when the processor returns. Nobody does when a processor
panics that nobody awaits, and then the exchange stays where it is (`not_settled_of_panicked`).
-/

namespace ServiceBus
namespace Bus
variable {b b' b'' : Bus} {x : Nat} {new others : List Job}

/-! ### Who minds a processor -/

/-- From `b` to `b'` every processor that has been launched to be awaited is awaited by one of the
new jobs, or its exchange is settled, and no processor has begun or come to its end. -/
structure Minds (b b' : Bus) (new : List Job) : Prop extends Evolves b b' where
  outcomes_eq : b'.outcomes = b.outcomes
  duties : ∀ run n x, .processor run n x true ∈ b'.duties → .processor run n x true ∈ b.duties ∨
    (b'.exchange x).Settled ∨ ∃ deadline seen, .sending (.processing x run deadline seen) ∈ new
  jobs : ∀ run n x awaited, .processing run n x awaited ∉ new

namespace Minds

theorem of_evolves (he : Evolves b b') (ho : b'.outcomes = b.outcomes)
    (hd : b'.duties = b.duties) (hj : ∀ run n x awaited, .processing run n x awaited ∉ new) :
    Minds b b' new where
  toEvolves := he
  outcomes_eq := ho
  duties _ _ _ h := .inl (hd ▸ h)
  jobs := hj

theorem not_processing {γ ρ : Type} {f : γ → Job} (t : Turn γ ρ)
    (hf : ∀ c run n x awaited, f c ≠ .processing run n x awaited) :
    ∀ run n x awaited, .processing run n x awaited ∉ t.jobs f := by
  intro run n x awaited h
  obtain ⟨c, -, e⟩ := Turn.mem_jobs.1 h
  exact hf c run n x awaited e.symm

theorem of_ledger (he : Evolves b b') (hl : b'.ledger = b.ledger) (r : Turn Sending SendResult) :
    Minds b b' (r.jobs .sending) :=
  of_evolves he (congrArg Ledger.outcomes hl) (duties_of_ledger hl)
    (not_processing r fun _ _ _ _ _ => nofun)

theorem of_calls {γ ρ : Type} {f : γ → Job} (h : Calls b b') (r : Turn γ ρ)
    (hf : ∀ c run n x awaited, f c ≠ .processing run n x awaited) : Minds b b' (r.jobs f) :=
  of_evolves h.evolves h.outcomes_eq h.duties_eq (not_processing r hf)

theorem from_evolves (h : Minds b' b'' new) (he : Evolves b b') (ho : b'.outcomes = b.outcomes)
    (hd : ∀ l ∈ b'.duties, l ∈ b.duties) : Minds b b'' new where
  toEvolves := he.trans h.toEvolves
  outcomes_eq := h.outcomes_eq.trans ho
  duties run n x hl := (h.duties run n x hl).imp_left (hd _)
  jobs := h.jobs

theorem from_ledger (h : Minds b' b'' new) (he : Evolves b b') (hl : b'.ledger = b.ledger) :
    Minds b b'' new :=
  h.from_evolves he (congrArg Ledger.outcomes hl) fun _ => (duties_of_ledger hl ▸ ·)

theorem from_calls (h : Minds b' b'' new) (hc : Calls b b') : Minds b b'' new :=
  h.from_evolves hc.evolves hc.outcomes_eq fun _ => (hc.duties_eq ▸ ·)

/-- A sender who awaits a processor goes on awaiting it, or the exchange is settled. -/
theorem awaitProcessor (h : b.Dispatched x) (run deadline : Nat) :
    Evolves b (b.awaitProcessor x run deadline).1 ∧
      (b.awaitProcessor x run deadline).1.ledger = b.ledger ∧
      (((b.awaitProcessor x run deadline).1.exchange x).Settled ∨ ∃ deadline' seen,
        .sending (.processing x run deadline' seen) ∈
          (b.awaitProcessor x run deadline).2.jobs .sending) := by
  obtain ⟨b', r, e, hs, ht | ht⟩ | ⟨seen, -, e⟩ :=
    awaitProcessor_cases h.lt_size h.sent run deadline <;> rw [e]
  · exact ⟨ht.toEvolves, ht.ledger_eq, .inl hs⟩
  · exact ⟨ht.toEvolves, ht.ledger_eq, .inl hs⟩
  · exact ⟨.refl b, rfl, .inr ⟨deadline, seen, List.mem_singleton.2 rfl⟩⟩

theorem deliver (h : b.Dispatched x) (t : Endpoint) (d : Delivery) :
    Minds b (b.deliver x t d).1 ((b.deliver x t d).2.jobs .sending) := by
  have hj := not_processing (f := .sending) (b.deliver x t d).2 fun _ _ _ _ _ => nofun
  have he := Evolves.deliver b x t d
  obtain ⟨n, e⟩ | ⟨n, deadline, e⟩ | ⟨hs, -⟩ := deliver_cases b x t d
  · rw [e] at hj he ⊢
    exact ⟨he, rfl, fun run m y hl => .inl (by simpa [duties_started] using hl), hj⟩
  · obtain ⟨-, hl, hs⟩ :=
      awaitProcessor (b := b.started x n true) ⟨h.lt_size, h.sent⟩ b.fresh deadline
    rw [e] at hj he ⊢
    refine ⟨he, congrArg Ledger.outcomes hl, fun run m y hm => ?_, hj⟩
    rw [duties_of_ledger hl, duties_started] at hm
    simp only [List.mem_append, List.mem_cons, reduceCtorEq, Launch.processor.injEq, and_true,
      List.not_mem_nil, or_false, false_or] at hm
    rcases hm with hm | ⟨rfl, -, rfl⟩
    · exact .inl hm
    · exact .inr hs
  · refine ⟨he, congrArg Ledger.outcomes hs.ledger_eq, fun run m y hl => ?_, hj⟩
    rw [duties_of_ledger hs.ledger_eq, duties_track] at hl
    exact .inl (by simpa using hl)

theorem persisted (h : b.Dispatched x) (t : Endpoint) (d : Delivery)
    (r : Turn Access StoreAnswer) :
    Minds b (b.persisted x t d r).1 ((b.persisted x t d r).2.jobs .sending) := by
  cases r with
  | waiting a => exact of_ledger (.refl b) rfl _
  | ended r =>
    cases r with
    | ok _ => exact deliver h t d
    | error e => exact of_ledger (Evolves.failQuietly b x _) rfl _

theorem dispatch (hx : x < b.exchanges.size) (t : Endpoint) (d : Delivery) :
    Minds b (b.dispatch x t d).1 ((b.dispatch x t d).2.jobs .sending) := by
  obtain ⟨r, h⟩ | ⟨b', moved, h⟩ := dispatch_cases hx t d <;> rw [h]
  · exact of_ledger (.refl b) rfl _
  have hx' : b'.Dispatched x := ⟨Nat.lt_of_lt_of_le hx moved.size_le, moved.sent⟩
  split
  · have hc := Calls.persist b' x
    exact ((persisted (hx'.evolves hc.evolves) t d _).from_calls hc).from_ledger moved.toEvolves
      moved.ledger_eq
  · exact (deliver hx' t d).from_ledger moved.toEvolves moved.ledger_eq

theorem respond (hx : x < b.exchanges.size) :
    Minds b (b.respond x).1 ((b.respond x).2.jobs .sending) := by
  obtain ⟨r, h⟩ | ⟨b', moved, h⟩ := respond_cases hx <;> rw [h]
  · exact of_ledger (.refl b) rfl _
  split
  · have hc := Calls.persist b' x
    exact (of_calls (f := .sending) hc _ fun _ _ _ _ _ => nofun).from_ledger moved.toEvolves
      moved.ledger_eq
  · exact of_ledger moved.toEvolves moved.ledger_eq _

theorem send (hx : x < b.exchanges.size) :
    Minds b (b.send x).1 ((b.send x).2.jobs .sending) := by
  obtain ⟨b', r, hs, -, h⟩ | ⟨-, h⟩ | ⟨selector, t, d, -, h⟩ := send_cases b x <;> rw [h]
  · exact of_ledger hs.toEvolves hs.ledger_eq _
  · exact respond hx
  · exact (dispatch (b := { b with selector }) hx t d).from_ledger (.of_eq rfl) rfl

theorem resumeSend {c : Sending} (h : b.Orderly (.sending c :: others)) :
    Minds b (b.resumeSend c).1 ((b.resumeSend c).2.jobs .sending) := by
  have hc (hs : c.Concerns c.exchange) : b.Dispatched c.exchange :=
    h c.exchange (.inl ⟨_, List.mem_cons_self, hs⟩)
  cases c with
  | persisting x t d a =>
    have ha := Calls.resumeAccess b a
    exact (persisted ((hc rfl).evolves ha.evolves) t d _).from_calls ha
  | processing x run deadline seen =>
    obtain ⟨he, hl, -⟩ := awaitProcessor (hc rfl) run deadline
    exact of_ledger he hl _
  | queueing x k q ticket =>
    have he := Stirs.enqueue b x k q (some ticket)
    exact of_ledger he.toEvolves he.ledger_eq _
  | replying x deadline seen =>
    have he := Stirs.awaitReply b x deadline
    exact of_ledger he.toEvolves he.ledger_eq _
  | responding x a => exact of_calls (Calls.resumeAccess b a) _ fun _ _ _ _ _ => nofun

theorem removed (b : Bus) (x : Nat) (r : Turn Access StoreAnswer) :
    Minds b (b.removed x r).1 ((b.removed x r).2.jobs .tracking) := by
  have hj := not_processing (f := .tracking) (b.removed x r).2 fun _ _ _ _ _ => nofun
  cases r <;> exact of_evolves (.of_eq rfl) rfl rfl hj

theorem follow (b : Bus) (x : Nat) (persisted : Bool) :
    Minds b (b.follow x persisted).1 ((b.follow x persisted).2.jobs .tracking) := by
  unfold Bus.follow
  split
  · split
    · next s _ =>
      have hc := Calls.callStore b s (.remove (b.exchange x).id)
      split
      · exact (removed _ x _).from_calls hc
      · exact removed b x _
    · exact removed b x _
  · exact of_calls (f := .tracking) (.refl b) _ fun _ _ _ _ _ => nofun

theorem resumeTracking (b : Bus) (t : Tracking) :
    Minds b (b.resumeTracking t).1 ((b.resumeTracking t).2.jobs .tracking) := by
  cases t with
  | watching x persisted seen => exact follow b x persisted
  | removing x a => exact (removed _ x _).from_calls (Calls.resumeAccess b a)

end Minds

/-! ### From launch to end -/

/-- A processor that its sender awaits has been launched on `x`, is at work or has come to its
end. -/
def Pursued (b : Bus) (jobs : List Job) (log : List Deed) (run x : Nat) : Prop :=
  (∃ n, .processor run n x true ∈ b.duties) ∨ (∃ n, .processing run n x true ∈ jobs) ∨
    ∃ o, .finish run x true o ∈ log

/-- Of every processor's run on `x` somebody waits for the end, or `x` has been settled. -/
structure Attended (b : Bus) (jobs : List Job) (log : List Deed) (x : Nat) : Prop where
  awaited : ∀ run, Pursued b jobs log run x → (b.exchange x).Settled ∨
    ∃ deadline seen, .sending (.processing x run deadline seen) ∈ jobs
  noted : ∀ run o, .finish run x true o ∈ log → b.outcomes.contains run = true
  left : ∀ run o, .finish run x false o ∈ log → (∀ m, o ≠ .panicked m) → (b.exchange x).Settled

variable {jobs gone : List Job} {log : List Deed} {d : Deed}

theorem settled_evolves (he : Evolves b b') (h : (b.exchange x).Settled) :
    (b'.exchange x).Settled := by
  by_cases hx : x < b.exchanges.size
  · exact h.leads (he.leads x hx)
  · -- there is no such exchange, and the one that stands for it is not settled
    have hd : b.exchange x = default := by simp [exchange, Nat.le_of_not_lt hx]
    rw [hd] at h
    rcases h with h | ⟨h, -⟩
    · exact absurd rfl h
    · cases h

theorem Attended.perm (h : Attended b jobs log x) (hj : jobs.Perm others) :
    Attended b others log x where
  awaited run hp := by
    refine (h.awaited run ?_).imp_right fun ⟨l, s, hm⟩ => ⟨l, s, hj.mem_iff.1 hm⟩
    exact hp.imp_right (.imp_left fun ⟨n, hm⟩ => ⟨n, hj.mem_iff.2 hm⟩)
  noted := h.noted
  left := h.left

/-- A turn that is not a processor's. The jobs it takes away may not be the last to wait. -/
theorem Attended.turn (gone : List Job) (h : Attended b (gone ++ others) log x)
    (hm : Minds b b' new) (hd : ∀ run awaited o, d ≠ .finish run x awaited o)
    (hg : ∀ run deadline seen, .sending (.processing x run deadline seen) ∈ gone →
      (b'.exchange x).Settled ∨
        ∃ deadline seen, .sending (.processing x run deadline seen) ∈ new) :
    Attended b' (new ++ others) (d :: log) x := by
  have hlog {run : Nat} {awaited : Bool} {o : Outcome}
      (hf : .finish run x awaited o ∈ d :: log) : .finish run x awaited o ∈ log :=
    (List.mem_cons.1 hf).resolve_left fun e => hd _ _ _ e.symm
  have hs := settled_evolves hm.toEvolves (x := x)
  refine ⟨fun run hp => ?_, fun run o hf => hm.outcomes_eq ▸ h.noted run o (hlog hf),
    fun run o hf ho => hs (h.left run o (hlog hf) ho)⟩
  -- who was pursued before is awaited by a job that stays, or by one that takes its place
  have hold (hp : Pursued b (gone ++ others) log run x) : (b'.exchange x).Settled ∨
      ∃ deadline seen, .sending (.processing x run deadline seen) ∈ new ++ others := by
    rcases h.awaited run hp with hset | ⟨deadline, seen, hj⟩
    · exact .inl (hs hset)
    rcases List.mem_append.1 hj with hj | hj
    · exact (hg run deadline seen hj).imp_right fun ⟨l, s, hj⟩ => ⟨l, s, List.mem_append_left _ hj⟩
    · exact .inr ⟨deadline, seen, List.mem_append_right _ hj⟩
  rcases hp with ⟨n, hl⟩ | ⟨n, hj⟩ | ⟨o, hf⟩
  · rcases hm.duties run n x hl with hl | hset | ⟨deadline, seen, hj⟩
    · exact hold (.inl ⟨n, hl⟩)
    · exact .inl hset
    · exact .inr ⟨deadline, seen, List.mem_append_left _ hj⟩
  · have hj := (List.mem_append.1 hj).resolve_left (hm.jobs run n x true)
    exact hold (.inr (.inl ⟨n, List.mem_append_right _ hj⟩))
  · exact hold (.inr (.inr ⟨o, hlog hf⟩))

theorem Attended.process {run n y : Nat} {awaited : Bool} {before after : List Launch}
    (launched : b.launched = before ++ .processor run n y awaited :: after)
    (h : Attended b jobs log x) :
    Attended (b.leaving (before ++ after)) (.processing run n y awaited :: jobs)
      (.take (.processor run n y awaited) :: log) x := by
  have hlog {r : Nat} {a : Bool} {o : Outcome}
      (hf : .finish r x a o ∈ .take (.processor run n y awaited) :: log) :
      .finish r x a o ∈ log := (List.mem_cons.1 hf).resolve_left nofun
  refine ⟨fun r hp => ?_, fun r o hf => h.noted r o (hlog hf), fun r o hf => h.left r o (hlog hf)⟩
  have hold : Pursued b jobs log r x := by
    rcases hp with ⟨m, hl⟩ | ⟨m, hj⟩ | ⟨o, hf⟩
    · exact .inl ⟨m, mem_duties_of_leaving launched hl⟩
    · rcases List.mem_cons.1 hj with e | hj
      · cases e
        exact .inl ⟨n, mem_duties_of_launched launched rfl⟩
      · exact .inr (.inl ⟨m, hj⟩)
    · exact .inr (.inr ⟨o, hlog hf⟩)
  exact (h.awaited r hold).imp_right fun ⟨l, s, hj⟩ => ⟨l, s, List.mem_cons_of_mem _ hj⟩

theorem contains_finish {run y : Nat} {awaited : Bool} {o : Outcome} (hy : b.Dispatched y)
    {r : Nat} : (b.finish y run awaited o).outcomes.contains r = true ↔
      b.outcomes.contains r = true ∨ awaited = true ∧ r = run := by
  unfold finish
  cases awaited with
  | true =>
    simp only [↓reduceIte, Table.contains, Table.get?_insert, true_and]
    split <;> simp [*]
  | false =>
    have hl (o : Outcome) := congrArg Ledger.outcomes (ledger_settle hy.lt_size run o)
    have hl (o : Outcome) : (b.settle y run o).1.outcomes = b.outcomes := hl o
    cases o <;> simp [hl]

/-- The bus settles an exchange itself when nobody awaits its processor and it does not panic. -/
theorem settled_finish {o : Outcome} (hx : b.Dispatched x) (run : Nat)
    (ho : ∀ m, o ≠ .panicked m) : ((b.finish x run false o).exchange x).Settled := by
  cases o with
  | panicked m => exact absurd rfl (ho m)
  | returned | refused => exact settled_settle hx.lt_size hx.sent run _

theorem Attended.finish {run n y : Nat} {awaited : Bool} (o : Outcome) (hy : b.Dispatched y)
    (h : Attended b (.processing run n y awaited :: jobs) log x) :
    Attended (b.finish y run awaited o) jobs (.finish run y awaited o :: log) x := by
  have he := Evolves.finish b y run awaited o
  have hd := duties_finish hy.lt_size run awaited o
  have hs := settled_evolves he (x := x)
  refine ⟨fun r hp => ?_, fun r o' hf => ?_, fun r o' hf ho => ?_⟩
  · have hold : Pursued b (.processing run n y awaited :: jobs) log r x := by
      rcases hp with ⟨m, hl⟩ | ⟨m, hj⟩ | ⟨o', hf⟩
      · exact .inl ⟨m, hd ▸ hl⟩
      · exact .inr (.inl ⟨m, List.mem_cons_of_mem _ hj⟩)
      · rcases List.mem_cons.1 hf with e | hf
        · cases e
          exact .inr (.inl ⟨n, List.mem_cons_self⟩)
        · exact .inr (.inr ⟨o', hf⟩)
    refine (h.awaited r hold).imp hs fun ⟨l, s, hj⟩ => ⟨l, s, ?_⟩
    exact (List.mem_cons.1 hj).resolve_left nofun
  · rw [contains_finish hy]
    rcases List.mem_cons.1 hf with e | hf
    · cases e
      exact .inr ⟨rfl, rfl⟩
    · exact .inl (h.noted r o' hf)
  · rcases List.mem_cons.1 hf with e | hf
    · cases e
      exact settled_finish hy run ho
    · exact hs (h.left r o' hf ho)

end Bus

namespace Traffic
variable {s s₀ : Traffic} {d : Deed} {b : Bus} {jobs : List Job} {x : Nat}

/-- Nobody gives up a send that awaits a processor of `x`. -/
def Stays (x : Nat) (_ : Traffic) (d : Deed) (_ : Traffic) : Prop :=
  ∀ run deadline seen, d ≠ .abandon (.sending (.processing x run deadline seen))

theorem Event.attended (ho : s.bus.Orderly s.jobs) (h : s.bus.Attended s.jobs s.log x)
    (k : s.Event d b jobs) (stays : ∀ run deadline seen,
      d ≠ .abandon (.sending (.processing x run deadline seen))) :
    b.Attended jobs (d :: s.log) x := by
  cases k with
  | plain gone come deed stirs jobs come_plain gone_plain =>
    have hnew (run n x awaited) : Job.processing run n x awaited ∉ come :=
      fun hj => by cases come_plain _ hj
    refine (h.perm jobs).turn gone (.of_evolves stirs.toEvolves
      (congrArg Ledger.outcomes stirs.ledger_eq) (Bus.duties_of_ledger stirs.ledger_eq) hnew)
      (fun _ _ _ e => by rw [e] at deed; cases deed) fun run deadline seen hj => ?_
    rcases gone_plain _ hj with hp | ⟨-, e⟩
    · cases hp
    · exact absurd e (stays run deadline seen)
  | send hx => exact h.turn [] (.send hx) (fun _ _ _ => nofun) (by simp)
  | respond hx => exact h.turn [] (.respond hx) (fun _ _ _ => nofun) (by simp)
  | @resumeSend c others job =>
    have ho := ho.mono (fun j hj => .inl (job.mem_iff.2 hj)) (fun _ hl => hl) (.refl _)
    refine (h.perm job).turn [_] (.resumeSend ho) (fun _ _ _ => nofun)
      fun run deadline seen hj => ?_
    cases List.mem_singleton.1 hj
    exact (Bus.Minds.awaitProcessor (ho x (.inl ⟨_, List.mem_cons_self, rfl⟩)) run deadline).2.2
  | retrieve id =>
    exact h.turn [] (.of_calls (.retrieve _ id) _ fun _ _ _ _ _ => nofun)
      (fun _ _ _ => nofun) (by simp)
  | resumeRetrieve job =>
    exact (h.perm job).turn [_] (.of_calls (.resumeAccess _ _) _ fun _ _ _ _ _ => nofun)
      (fun _ _ _ => nofun) (by simp)
  | @track y persisted before others launched =>
    exact h.turn [] ((Bus.Minds.follow _ y persisted).from_evolves (.of_eq rfl) rfl
      fun _ => Bus.mem_duties_of_leaving launched) (fun _ _ _ => nofun) (by simp)
  | resumeTracking job =>
    exact (h.perm job).turn [_] (.resumeTracking _ _) (fun _ _ _ => nofun) (by simp)
  | process launched => exact h.process launched
  | finish o job =>
    exact (h.perm job).finish o (ho _ (.inl ⟨_, job.mem_iff.2 List.mem_cons_self, rfl⟩))
  | serve =>
    have hm : Bus.Minds s.bus { s.bus with served := s.bus.served + 1 } [] :=
      .of_evolves (.of_eq rfl) rfl rfl (by simp)
    exact h.turn [] hm (fun _ _ _ => nofun) (by simp)

theorem Fresh.attended (h : s.Fresh) (x : Nat) : s.bus.Attended s.jobs s.log x := by
  constructor <;> simp [Bus.Pursued, Bus.duties, h.no_jobs, h.no_log, h.no_launches]

theorem Runs.attended (fresh : s₀.Fresh) (h : Runs (Stays x) s₀ s) :
    s.bus.Attended s.jobs s.log x := by
  induction h with
  | refl => exact fresh.attended x
  | step run step stays ih =>
    rw [step.log_eq]
    exact step.event.attended (run.orderly fresh) ih stays

/-- A sender does not wait for a processor that has come to its end. -/
theorem Quiet.not_processing (h : s.Quiet) {run deadline : Nat} {seen : Progress}
    (noted : s.bus.outcomes.contains run = true) :
    .sending (.processing x run deadline seen) ∉ s.jobs := by
  intro hj
  have hw : s.bus.holds (.outcome run) = false :=
    h.waiting _ hj _ (by simp [Job.waits, Sending.waits])
  rw [Bus.holds, noted] at hw
  cases hw

/-- Once a processor has come to its end and nobody can go on, its exchange has ended or is back
with the consumer with a reply, unless the processor panicked with nobody awaiting it. -/
theorem settled_of_finished {run : Nat} {awaited : Bool} {o : Outcome} (fresh : s₀.Fresh)
    (runs : Runs (Stays x) s₀ s) (quiet : s.Quiet) (finished : .finish run x awaited o ∈ s.log)
    (minded : awaited = true ∨ ∀ m, o ≠ .panicked m) : (s.bus.exchange x).Settled := by
  have ha := runs.attended fresh
  cases awaited with
  | true =>
    refine (ha.awaited run (.inr (.inr ⟨o, finished⟩))).resolve_right fun ⟨deadline, seen, hj⟩ => ?_
    exact quiet.not_processing (ha.noted run o finished) hj
  | false => exact ha.left run o finished (minded.resolve_left nofun)

/-- `Bus.servedBus` before anything has happened. -/
def served : Traffic := ⟨Bus.servedBus, [], []⟩

/-- The request is sent, the processor replies and returns, and the sender and the tracker
notice. -/
theorem runs_served : ∃ s, Runs (Stays 0) served s ∧ s.Quiet ∧
    .finish 1 0 true .returned ∈ s.log := by
  have start : Runs (Stays 0) served served := .refl
  have sent := start.step (.ask (r := .send 0) Nat.one_pos) fun _ _ _ => nofun
  have tracked := sent.step (@Step.take _ (.tracker 0 false) [] [.processor 1 0 0 true] rfl)
    fun _ _ _ => nofun
  have begun := tracked.step (@Step.take _ (.processor 1 0 0 true) [] [] rfl) fun _ _ _ => nofun
  have replied := begun.step (.ask (r := .change 0 (.setOut .empty)) ⟨Nat.one_pos, rfl⟩)
    fun _ _ _ => nofun
  have returned := replied.step (@Step.finish _ 1 0 0 true _ .returned (.refl _)) fun _ _ _ => nofun
  have answered := returned.step (@Step.resume _
    (.sending (.processing 0 1 1000 ⟨.active, .provider, 1⟩)) _ (.swap _ _ _)) fun _ _ _ => nofun
  have noticed := answered.step (@Step.resume _
    (.tracking (.watching 0 false ⟨.active, .provider, 1⟩)) _ (.refl _)) fun _ _ _ => nofun
  refine ⟨_, noticed, ⟨rfl, fun j hj w hw => ?_⟩, by simp [after]⟩
  cases List.mem_singleton.1 hj
  cases List.mem_singleton.1 hw
  rfl

theorem settled_of_finished_served : ∃ s, served.Fresh ∧ Runs (Stays 0) served s ∧ s.Quiet ∧
    .finish 1 0 true .returned ∈ s.log ∧ (s.bus.exchange 0).Settled := by
  have fresh : served.Fresh := ⟨rfl, rfl, rfl, rfl⟩
  obtain ⟨s, runs, quiet, finished⟩ := runs_served
  exact ⟨s, fresh, runs, quiet, finished,
    settled_of_finished fresh runs quiet finished (.inl rfl)⟩

/-- `served` with a one-way message in place of the request. -/
def notified : Traffic where
  bus := { served.bus with exchanges := #[{ served.bus.exchange 0 with
    pattern := .inOnly, synchronous := false }] }
  jobs := []
  log := []

/-- A panic of a processor that nobody awaits leaves the exchange with the provider. -/
theorem not_settled_of_panicked : ¬ ∀ (s₀ s : Traffic) (run x : Nat) (awaited : Bool)
    (o : Outcome), s₀.Fresh → Runs (Stays x) s₀ s → s.Quiet → .finish run x awaited o ∈ s.log →
      (s.bus.exchange x).Settled := by
  intro claimed
  have start : Runs (Stays 0) notified notified := .refl
  have sent := start.step (.ask (r := .send 0) Nat.one_pos) fun _ _ _ => nofun
  have tracked := sent.step (@Step.take _ (.tracker 0 false) [] [.processor 1 0 0 false] rfl)
    fun _ _ _ => nofun
  have begun := tracked.step (@Step.take _ (.processor 1 0 0 false) [] [] rfl) fun _ _ _ => nofun
  have returned := begun.step (@Step.finish _ 1 0 0 false _ (.panicked "out of stock") (.refl _))
    fun _ _ _ => nofun
  refine absurd (claimed notified _ 1 0 false (.panicked "out of stock") ⟨rfl, rfl, rfl, rfl⟩
    returned ⟨rfl, fun j hj w hw => ?_⟩ List.mem_cons_self) ?_
  · cases List.mem_singleton.1 hj
    cases List.mem_singleton.1 hw
    rfl
  · rintro (ended | ⟨back, -⟩)
    · exact ended rfl
    · cases back

end Traffic
end ServiceBus
