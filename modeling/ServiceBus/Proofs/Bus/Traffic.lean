import ServiceBus.Proofs.Bus.Evolution
import ServiceBus.Proofs.Registry.Filed

/-!
# Traffic on a bus

A `Traffic` is a bus with the calls that wait on it, the processors at work and a log of what has
happened so far. `s.Step d s'` is the turn of one of them, a new call, an answer of the disk or the
passing of time. Whose turn comes next is left open, so `Runs` are all the ways in which calls,
processors and trackers can get between each other. What a turn can do is summed up in `Event`.
-/

namespace ServiceBus

/-! ### Calls and work -/

/-- What somebody may ask of a bus. -/
inductive Request where
  | create (e : Exchange)
  | change (x : Nat) (c : Change)
  | send (x : Nat)
  | respond (x : Nat)
  | watch (x : Nat) (g : Goal) (limit : Option Nat)
  | accept (c : ComponentId) (limit : Option Nat)
  | connect (c : ComponentId) (d : Delivery)
  | connectQueue (c : ComponentId)
  | disconnect (c : ComponentId)
  | retrieve (id : String)
  | drain (limit : Nat)
  | failInFlight (cause : String)
  | beginShutdown
  | stop
  | shutdown (limit : Nat)
  | registry (c : Registry.Call)

namespace Request

/-- The request is about an exchange that is there, and leaves handing it over to the bus. -/
def Proper (b : Bus) : Request → Prop
  | .change x c => x < b.exchanges.size ∧ c.isHandover = false
  | .send x | .respond x | .watch x _ _ => x < b.exchanges.size
  | _ => True

/-- Whether the request needs neither a delivery nor the store. -/
def isPlain : Request → Bool
  | .send _ | .respond _ | .retrieve _ => false
  | _ => true

end Request

/-- A call that waits, or a processor at work on an exchange. -/
inductive Job where
  | sending (c : Sending)
  | watching (w : Watching)
  | accepting (a : Accepting)
  | retrieving (a : Access)
  | draining (d : Draining)
  | shuttingDown (s : ShuttingDown)
  | tracking (t : Tracking)
  | closing (c : Closing)
  | processing (run processor x : Nat) (awaited : Bool)

namespace Job

/-- What the job waits for; when a processor comes to its end is its own affair. -/
def waits : Job → List Wait
  | .sending c => c.waits
  | .watching w => w.waits
  | .accepting a => a.waits
  | .retrieving a => [.disk a.ticket]
  | .draining d => d.waits
  | .shuttingDown s => s.waits
  | .tracking t => t.waits
  | .closing c => c.waits
  | .processing .. => []

/-- Whether the job belongs to a caller, who may give it up. -/
def isCall : Job → Bool
  | .tracking _ | .closing _ | .processing .. => false
  | _ => true

/-- Whether the job has to do neither with a delivery nor with the store. -/
def isPlain : Job → Bool
  | .watching _ | .accepting _ | .draining _ | .shuttingDown _ | .closing _ => true
  | _ => false

end Job

def Turn.jobs {γ ρ : Type} (f : γ → Job) : Turn γ ρ → List Job
  | .ended _ => []
  | .waiting c => [f c]

/-- The bus after a call's turn and what is left of the call. -/
def pending {γ ρ : Type} (f : γ → Job) (r : Bus × Turn γ ρ) : Bus × List Job := (r.1, r.2.jobs f)

namespace Bus

def ask (b : Bus) : Request → Bus × List Job
  | .create e => ((b.addExchange e).1, [])
  | .change x c => ((b.change x c).1, [])
  | .send x => pending .sending (b.send x)
  | .respond x => pending .sending (b.respond x)
  | .watch x g limit => pending .watching (b.watch x g limit)
  | .accept c limit => pending .accepting (b.accept c limit)
  | .connect c d => (b.connect c d, [])
  | .connectQueue c => (b.connectQueue c, [])
  | .disconnect c => ((b.disconnect c).1, [])
  | .retrieve id => pending .retrieving (b.retrieve id)
  | .drain limit => pending .draining (b.drain ⟨b.now + limit⟩)
  | .failInFlight cause => ((b.failInFlight cause).1, [])
  | .beginShutdown => (b.beginShutdown, [])
  | .stop => (b.stop, [])
  | .shutdown limit => pending .shuttingDown (b.shutdown limit)
  | .registry c => ({ b with registry := b.registry.after c }, [])

/-- The bus with this work left to take up. -/
def leaving (b : Bus) (ls : List Launch) : Bus := { b with launched := ls }

def takeUp (b : Bus) : Launch → Bus × List Job
  | .tracker x persisted => pending .tracking (b.follow x persisted)
  | .processor run n x awaited => (b, [.processing run n x awaited])
  | .closer q => pending .closing (b.close q)

def resume (b : Bus) : Job → Bus × List Job
  | .sending c => pending .sending (b.resumeSend c)
  | .watching w => pending .watching (b.resumeWatch w)
  | .accepting a => pending .accepting (b.resumeAccept a)
  | .retrieving a => pending .retrieving (b.resumeAccess a)
  | .draining d => pending .draining (b.drain d)
  | .shuttingDown s => pending .shuttingDown (b.resumeShutdown s)
  | .tracking t => pending .tracking (b.resumeTracking t)
  | .closing c => pending .closing (b.resumeClosing c)
  | .processing run n x awaited => (b, [.processing run n x awaited])

def abandon (b : Bus) : Job → Bus
  | .sending c => b.abandonSend c
  | .accepting a => b.abandonAccept a
  | _ => b

end Bus

/-! ### Steps and runs -/

/-- Something that happens on a bus. -/
inductive Deed where
  | ask (r : Request)
  /-- Launched work is begun. -/
  | take (l : Launch)
  | resume (j : Job)
  /-- A processor comes to its end. -/
  | finish (run x : Nat) (awaited : Bool) (o : Outcome)
  | abandon (j : Job)
  /-- The disk serves its oldest request. -/
  | serve
  | pass (t : Nat)

structure Traffic where
  bus : Bus
  jobs : List Job
  /-- What has happened, newest first. -/
  log : List Deed

namespace Traffic

/-- The traffic after a deed that left this bus and these jobs. -/
def after (s : Traffic) (d : Deed) (r : Bus × List Job) (others : List Job) : Traffic :=
  ⟨r.1, r.2 ++ others, d :: s.log⟩

inductive Step (s : Traffic) : Deed → Traffic → Prop
  | ask {r : Request} (proper : r.Proper s.bus) :
    Step s (.ask r) (s.after (.ask r) (s.bus.ask r) s.jobs)
  | take {l : Launch} {before others : List Launch}
    (launched : s.bus.launched = before ++ l :: others) :
    Step s (.take l)
      (s.after (.take l) ((s.bus.leaving (before ++ others)).takeUp l) s.jobs)
  | resume {j : Job} {others : List Job} (job : s.jobs.Perm (j :: others)) :
    Step s (.resume j) (s.after (.resume j) (s.bus.resume j) others)
  | finish {run n x : Nat} {awaited : Bool} {others : List Job} (o : Outcome)
    (job : s.jobs.Perm (.processing run n x awaited :: others)) :
    Step s (.finish run x awaited o)
      (s.after (.finish run x awaited o) (s.bus.finish x run awaited o, []) others)
  | abandon {j : Job} {others : List Job} (call : j.isCall = true)
    (job : s.jobs.Perm (j :: others)) :
    Step s (.abandon j) (s.after (.abandon j) (s.bus.abandon j, []) others)
  | serve (asked : s.bus.served < s.bus.asked) :
    Step s .serve (s.after .serve ({ s.bus with served := s.bus.served + 1 }, []) s.jobs)
  | pass {t : Nat} (later : s.bus.now ≤ t) :
    Step s (.pass t) (s.after (.pass t) ({ s.bus with now := t }, []) s.jobs)

/-- What steps, each of them meeting `P`, can make of `s₀`. -/
inductive Runs (P : Traffic → Deed → Traffic → Prop) (s₀ : Traffic) : Traffic → Prop
  | refl : Runs P s₀ s₀
  | step {s s' : Traffic} {d : Deed} (run : Runs P s₀ s) (step : s.Step d s') (meets : P s d s') :
    Runs P s₀ s'

/-- Nothing has been asked of the bus yet, and nothing is in flight. -/
structure Fresh (s : Traffic) : Prop where
  no_jobs : s.jobs = []
  no_log : s.log = []
  no_launches : s.bus.launched = []
  no_flights : s.bus.inFlight = .empty

/-- Nobody can go on: nothing is launched and every job waits for something that has not come. -/
structure Quiet (s : Traffic) : Prop where
  no_launches : s.bus.launched = []
  waiting : ∀ j ∈ s.jobs, ∀ w ∈ j.waits, s.bus.holds w = false

end Traffic

/-! ### What a step comes to -/

/-- Whether the deed only stirs exchanges. -/
def Deed.isPlain : Deed → Bool
  | .ask r => r.isPlain
  | .take l => !l.isDuty
  | .resume (.sending _) | .resume (.retrieving _) | .resume (.tracking _) => false
  | .resume _ | .abandon _ | .pass _ => true
  | .finish .. | .serve => false

namespace Bus

theorem Stirs.ask {b : Bus} {r : Request} (proper : r.Proper b) (plain : r.isPlain = true) :
    Stirs b (b.ask r).1 := by
  cases r with
  | create e => exact addExchange b e
  | change x c => exact change b x proper.2
  | watch x g limit =>
    show Stirs b (b.watch x g limit).1
    unfold watch resumeWatch
    split
    · exact refl b
    · split <;> exact refl b
  | accept c limit => exact accept b c limit
  | connect c d => exact connect b c d
  | connectQueue c => exact connectQueue b c
  | disconnect c => exact disconnect b c
  | drain limit => exact drain b _
  | failInFlight cause => exact failInFlight b cause
  | beginShutdown => exact of_eq rfl rfl (Nat.le_refl _)
  | stop => exact stop b
  | shutdown limit => exact shutdown b limit
  | registry c => exact of_eq rfl rfl (Nat.le_refl _)
  | send | respond | retrieve => cases plain

theorem Stirs.resume {b : Bus} {j : Job} (plain : j.isPlain = true) : Stirs b (b.resume j).1 := by
  cases j with
  | watching w =>
    show Stirs b (b.resumeWatch w).1
    unfold resumeWatch
    split
    · exact refl b
    · split <;> exact refl b
  | accepting a => exact resumeAccept b a
  | draining d => exact drain b d
  | shuttingDown s => exact resumeShutdown b s
  | closing c => exact resumeClosing b c
  | sending | retrieving | tracking | processing => cases plain

theorem Stirs.abandon (b : Bus) (j : Job) : Stirs b (b.abandon j) := by
  cases j with
  | sending c => exact abandonSend b c
  | accepting a => exact of_eq rfl rfl (Nat.le_refl _)
  | _ => exact refl b

/-- Taking up what is no duty leaves the duties. -/
theorem Stirs.takeUp {b : Bus} {l : Launch} {before others : List Launch}
    (launched : b.launched = before ++ l :: others) (plain : l.isDuty = false) :
    Stirs b ((b.leaving (before ++ others)).takeUp l).1 := by
  cases l with
  | tracker | processor => cases plain
  | closer q =>
    have hl : Stirs b (b.leaving (before ++ others)) :=
      of_eq rfl (by simp [ledger, duties, leaving, launched, Launch.isDuty]) (Nat.le_refl _)
    exact hl.trans (close _ q)

end Bus

theorem Turn.mem_jobs {γ ρ : Type} {f : γ → Job} {t : Turn γ ρ} {j : Job} :
    j ∈ t.jobs f ↔ ∃ c, t = .waiting c ∧ j = f c := by
  cases t <;> simp [Turn.jobs]

theorem Turn.plain_of_mem_jobs {γ ρ : Type} {f : γ → Job} {t : Turn γ ρ}
    (hf : ∀ c, (f c).isPlain = true) : ∀ j ∈ t.jobs f, j.isPlain = true := by
  intro j hj
  obtain ⟨c, -, rfl⟩ := mem_jobs.1 hj
  exact hf c

/-- What is left when some of the launched work is taken up. -/
theorem Bus.mem_duties_of_leaving {b : Bus} {l k : Launch} {before others : List Launch}
    (launched : b.launched = before ++ k :: others)
    (h : l ∈ (b.leaving (before ++ others)).duties) : l ∈ b.duties := by
  simp only [duties, leaving, launched, List.mem_filter, List.mem_append, List.mem_cons] at h ⊢
  exact ⟨h.1.imp_right .inr, h.2⟩

theorem Bus.mem_duties_of_launched {b : Bus} {l : Launch} {before others : List Launch}
    (launched : b.launched = before ++ l :: others) (duty : l.isDuty = true) : l ∈ b.duties :=
  List.mem_filter.2 ⟨launched ▸ List.mem_append_right _ List.mem_cons_self, duty⟩

namespace Traffic
variable {s s' : Traffic} {d : Deed}

theorem Step.log_eq (h : s.Step d s') : s'.log = d :: s.log := by
  cases h <;> rfl

/-- Whatever there is after a step was there before, or is left of the turn that somebody has had. -/
theorem Step.mem_jobs {j : Job} (h : s.Step d s') (hj : j ∈ s'.jobs) : j ∈ s.jobs ∨
    (∃ r, d = .ask r ∧ r.Proper s.bus ∧ j ∈ (s.bus.ask r).2) ∨
    (∃ l b, d = .take l ∧ j ∈ (Bus.takeUp b l).2) ∨
    ∃ k, d = .resume k ∧ k ∈ s.jobs ∧ j ∈ (s.bus.resume k).2 := by
  cases h with
  | @ask r proper =>
    exact (List.mem_append.1 hj).symm.imp_right fun hj => .inl ⟨r, rfl, proper, hj⟩
  | @take l _ _ launched =>
    exact (List.mem_append.1 hj).symm.imp_right fun hj => .inr (.inl ⟨l, _, rfl, hj⟩)
  | @resume k _ job =>
    obtain hj | hj := List.mem_append.1 hj
    · exact .inr (.inr (.inr ⟨k, rfl, job.mem_iff.2 List.mem_cons_self, hj⟩))
    · exact .inl (job.mem_iff.2 (.tail _ hj))
  | finish _ job | abandon _ job => exact .inl (job.mem_iff.2 (.tail _ hj))
  | serve | pass => exact .inl hj

/-- A job stays until its turn comes, or it is given up, or its processor comes to its end. -/
theorem Step.kept {j : Job} (h : s.Step d s') (hj : j ∈ s.jobs) :
    j ∈ s'.jobs ∨ d = .resume j ∨ d = .abandon j ∨
      ∃ run n y awaited, j = .processing run n y awaited := by
  cases h with
  | ask | take => exact .inl (List.mem_append_right _ hj)
  | resume job =>
    obtain rfl | hj := List.mem_cons.1 (job.mem_iff.1 hj)
    · exact .inr (.inl rfl)
    · exact .inl (List.mem_append_right _ hj)
  | finish o job =>
    obtain rfl | hj := List.mem_cons.1 (job.mem_iff.1 hj)
    · exact .inr (.inr (.inr ⟨_, _, _, _, rfl⟩))
    · exact .inl hj
  | abandon call job =>
    obtain rfl | hj := List.mem_cons.1 (job.mem_iff.1 hj)
    · exact .inr (.inr (.inl rfl))
    · exact .inl hj
  | serve | pass => exact .inl hj

/-- What a step comes to: some stirring among jobs that have to do neither with a delivery nor with
the store, or one of the turns that do. -/
inductive Event (s : Traffic) : Deed → Bus → List Job → Prop
  | plain {d : Deed} {b : Bus} {others : List Job} (gone come : List Job)
    (deed : d.isPlain = true) (stirs : Bus.Stirs s.bus b) (jobs : s.jobs.Perm (gone ++ others))
    (come_plain : ∀ j ∈ come, j.isPlain = true)
    (gone_plain : ∀ j ∈ gone, j.isPlain = true ∨ (j.isCall = true ∧ d = .abandon j)) :
    Event s d b (come ++ others)
  | send {x : Nat} (hx : x < s.bus.exchanges.size) :
    Event s (.ask (.send x)) (s.bus.send x).1 ((s.bus.send x).2.jobs .sending ++ s.jobs)
  | respond {x : Nat} (hx : x < s.bus.exchanges.size) :
    Event s (.ask (.respond x)) (s.bus.respond x).1 ((s.bus.respond x).2.jobs .sending ++ s.jobs)
  | resumeSend {c : Sending} {others : List Job} (job : s.jobs.Perm (.sending c :: others)) :
    Event s (.resume (.sending c)) (s.bus.resumeSend c).1
      ((s.bus.resumeSend c).2.jobs .sending ++ others)
  | retrieve (id : String) :
    Event s (.ask (.retrieve id)) (s.bus.retrieve id).1
      ((s.bus.retrieve id).2.jobs .retrieving ++ s.jobs)
  | resumeRetrieve {a : Access} {others : List Job} (job : s.jobs.Perm (.retrieving a :: others)) :
    Event s (.resume (.retrieving a)) (s.bus.resumeAccess a).1
      ((s.bus.resumeAccess a).2.jobs .retrieving ++ others)
  | track {x : Nat} {persisted : Bool} {before others : List Launch}
    (launched : s.bus.launched = before ++ .tracker x persisted :: others) :
    Event s (.take (.tracker x persisted))
      ((s.bus.leaving (before ++ others)).follow x persisted).1
      (((s.bus.leaving (before ++ others)).follow x persisted).2.jobs .tracking ++ s.jobs)
  | resumeTracking {t : Tracking} {others : List Job} (job : s.jobs.Perm (.tracking t :: others)) :
    Event s (.resume (.tracking t)) (s.bus.resumeTracking t).1
      ((s.bus.resumeTracking t).2.jobs .tracking ++ others)
  | process {run n x : Nat} {awaited : Bool} {before others : List Launch}
    (launched : s.bus.launched = before ++ .processor run n x awaited :: others) :
    Event s (.take (.processor run n x awaited)) (s.bus.leaving (before ++ others))
      (.processing run n x awaited :: s.jobs)
  | finish {run n x : Nat} {awaited : Bool} {others : List Job} (o : Outcome)
    (job : s.jobs.Perm (.processing run n x awaited :: others)) :
    Event s (.finish run x awaited o) (s.bus.finish x run awaited o) others
  | serve : Event s .serve { s.bus with served := s.bus.served + 1 } s.jobs

theorem Step.event (h : s.Step d s') : s.Event d s'.bus s'.jobs := by
  cases h with
  | @ask r proper =>
    cases r with
    | send x => exact .send proper
    | respond x => exact .respond proper
    | retrieve id => exact .retrieve id
    | _ =>
      refine .plain [] _ rfl (.ask proper rfl) (.refl _) ?_ (by simp)
      first
        | exact Turn.plain_of_mem_jobs fun c => rfl
        | exact fun j hj => absurd hj List.not_mem_nil
  | @take l before others launched =>
    cases l with
    | tracker x persisted => exact .track launched
    | processor run n x awaited => exact .process launched
    | closer q =>
      exact .plain [] _ rfl (.takeUp launched rfl) (.refl _)
        (Turn.plain_of_mem_jobs fun c => rfl) (by simp)
  | @resume j others job =>
    cases j with
    | sending c => exact .resumeSend job
    | retrieving a => exact .resumeRetrieve job
    | tracking t => exact .resumeTracking job
    | processing => exact .plain [] [] rfl (.refl _) job (by simp) (by simp)
    | _ =>
      exact .plain [_] _ rfl (.resume rfl) job (Turn.plain_of_mem_jobs fun c => rfl)
        (by simp [Job.isPlain])
  | finish o job => exact .finish o job
  | @abandon j others call job =>
    exact .plain [j] [] rfl (.abandon _ _) job (by simp) (by simp [call])
  | serve => exact .serve
  | pass =>
    exact .plain [] [] rfl (.of_eq rfl rfl (Nat.le_refl _)) (.refl _) (by simp) (by simp)

/-- Whatever send is pending after a step was pending before, or has just had a turn and waits on. -/
theorem Step.sending_cases {c : Sending} (h : s.Step d s') (hc : .sending c ∈ s'.jobs) :
    .sending c ∈ s.jobs ∨
      (∃ x, d = .ask (.send x) ∧ x < s.bus.exchanges.size ∧
        s.bus.send x = (s'.bus, .waiting c)) ∨
      (∃ x, d = .ask (.respond x) ∧ x < s.bus.exchanges.size ∧
        s.bus.respond x = (s'.bus, .waiting c)) ∨
      ∃ e others, d = .resume (.sending e) ∧ s.jobs.Perm (.sending e :: others) ∧
        s.bus.resumeSend e = (s'.bus, .waiting c) := by
  have other {γ ρ : Type} {f : γ → Job} {t : Turn γ ρ} (hf : ∀ a, f a ≠ .sending c) :
      .sending c ∉ t.jobs f := fun hj =>
    have ⟨a, _, same⟩ := Turn.mem_jobs.1 hj
    hf a same.symm
  have waits {r : Bus × Turn Sending SendResult} (hj : .sending c ∈ r.2.jobs .sending) :
      r = (r.1, .waiting c) := by
    obtain ⟨e, turn, same⟩ := Turn.mem_jobs.1 hj
    obtain rfl := Job.sending.inj same
    rw [← turn]
  have event := h.event
  generalize s'.bus = b, s'.jobs = jobs at event hc ⊢
  cases event with
  | plain gone come _ _ job come_plain =>
    rcases List.mem_append.1 hc with hc | hc
    · cases come_plain _ hc
    · exact .inl (job.mem_iff.2 (List.mem_append_right _ hc))
  | @send x hx =>
    exact (List.mem_append.1 hc).symm.imp_right fun hc => .inl ⟨x, rfl, hx, waits hc⟩
  | @respond x hx =>
    exact (List.mem_append.1 hc).symm.imp_right fun hc => .inr (.inl ⟨x, rfl, hx, waits hc⟩)
  | @resumeSend e others job =>
    rcases List.mem_append.1 hc with hc | hc
    · exact .inr (.inr (.inr ⟨e, others, rfl, job, waits hc⟩))
    · exact .inl (job.mem_iff.2 (.tail _ hc))
  | retrieve | track => exact .inl ((List.mem_append.1 hc).resolve_left (other fun _ => nofun))
  | resumeRetrieve job | resumeTracking job =>
    have hc := (List.mem_append.1 hc).resolve_left (other fun _ => nofun)
    exact .inl (job.mem_iff.2 (.tail _ hc))
  | process => exact .inl ((List.mem_cons.1 hc).resolve_left nofun)
  | finish _ job => exact .inl (job.mem_iff.2 (.tail _ hc))
  | serve => exact .inl hc

end Traffic
end ServiceBus
