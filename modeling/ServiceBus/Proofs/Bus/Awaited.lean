import ServiceBus.Proofs.Bus.Courses
import ServiceBus.Proofs.Exchange.Shown

/-!
# Waiting for an exchange to come to a goal

Whoever goes to wait on an exchange has just looked at it and has not found it where it is wanted
(`Looks`). A goal once reached is reached for good (`Leads.reached`), so from then on nobody goes to
wait for it any more: who begins to wait is answered at once, and who has been waiting is woken, for
what the exchange shows is not what has been seen of it last (`Heard`).
-/

namespace ServiceBus

/-- What somebody waits for on an exchange stays once it has come. -/
theorem Exchange.Leads.reached {x y : Exchange} {g : Goal} (hl : x.Leads y)
    (h : g.reached x.progress = true) : g.reached y.progress = true := by
  cases g with
  | completion => exact isComplete_leads h hl
  | reply => exact isReplied_leads h hl

/-! ### Who goes to wait has just looked -/

namespace Job
variable {x y run deadline : Nat} {g : Goal} {p seen : Progress}

/-- The job waits for an exchange to come to a goal, and this is what it has last seen of it. -/
def Awaits (j : Job) (x : Nat) (g : Goal) (seen : Progress) : Prop := .exchange x g seen ∈ j.waits

/-- Whether it is the kind of job that can wait on an exchange. -/
def watches : Job → Bool
  | .sending _ | .watching _ | .tracking _ => true
  | _ => false

theorem Awaits.watches {j : Job} (h : j.Awaits x g seen) : j.watches = true := by
  cases j with
  | sending | watching | tracking => rfl
  | shuttingDown s => cases s <;> simp [Awaits, waits, ShuttingDown.waits, Draining.waits] at h
  | _ => simp [Awaits, waits, Accepting.waits, Draining.waits, Closing.waits] at h

theorem awaits_processing : (sending (.processing x run deadline p)).Awaits y g seen ↔
    y = x ∧ g = .completion ∧ seen = p := by
  simp [Awaits, waits, Sending.waits]

theorem awaits_replying : (sending (.replying x deadline p)).Awaits y g seen ↔
    y = x ∧ g = .reply ∧ seen = p := by
  simp [Awaits, waits, Sending.waits]

theorem awaits_watching {w : Watching} : (watching w).Awaits y g seen ↔
    y = w.x ∧ g = w.goal ∧ seen = w.seen := by
  simp [Awaits, waits, Watching.waits]

theorem awaits_tracking {persisted : Bool} : (tracking (.watching x persisted p)).Awaits y g seen ↔
    y = x ∧ g = .completion ∧ seen = p := by
  simp [Awaits, waits, Tracking.waits]

end Job

/-- Who waits on an exchange after this turn sees how it is and has not found it at the goal. -/
def Looks (r : Bus × List Job) : Prop :=
  ∀ j ∈ r.2, ∀ x g seen, j.Awaits x g seen → seen = r.1.progress x ∧ g.reached seen = false

namespace Looks
variable {γ ρ : Type} {f : γ → Job} {b : Bus}

theorem nobody {r : Bus × List Job} (h : r.2 = []) : Looks r := by
  intro j hj
  rw [h] at hj
  cases hj

/-- A call has come to its end. -/
theorem ended (r : ρ) : Looks (pending f (b, .ended r)) := nobody rfl

theorem waiting {c : γ} (h : ∀ x g seen, (f c).Awaits x g seen →
    seen = b.progress x ∧ g.reached seen = false) :
    Looks (pending (ρ := ρ) f (b, .waiting c)) := by
  intro j hj
  obtain rfl := List.mem_singleton.1 hj
  exact h

/-- A call that waits for the disk does not wait on an exchange. -/
theorem stored {c : γ} {ticket : Nat} (h : (f c).waits = [.disk ticket]) :
    Looks (pending (ρ := ρ) f (b, .waiting c)) :=
  waiting fun x g seen awaits => by simp [Job.Awaits, h] at awaits

/-- Whatever such a call waits for, it is not an exchange. -/
theorem aside {r : Bus × Turn γ ρ} (h : ∀ c, (f c).watches = false) : Looks (pending f r) := by
  intro j hj x g seen awaits
  obtain ⟨c, -, rfl⟩ := Turn.mem_jobs.1 hj
  exact absurd awaits.watches (Bool.eq_false_iff.1 (h c))

theorem awaitProcessor (b : Bus) (x run deadline : Nat) :
    Looks (pending .sending (b.awaitProcessor x run deadline)) := by
  unfold Bus.awaitProcessor
  split
  · split <;> exact ended _
  · split
    · exact ended _
    · next unreached =>
      split
      · exact ended _
      · refine waiting fun y g seen awaits => ?_
        obtain ⟨rfl, rfl, rfl⟩ := Job.awaits_processing.1 awaits
        exact ⟨rfl, Bool.eq_false_iff.2 unreached⟩

theorem awaitReply (b : Bus) (x deadline : Nat) :
    Looks (pending .sending (b.awaitReply x deadline)) := by
  unfold Bus.awaitReply
  split
  · exact ended _
  · next unreached =>
    split
    · exact ended _
    · refine waiting fun y g seen awaits => ?_
      obtain ⟨rfl, rfl, rfl⟩ := Job.awaits_replying.1 awaits
      exact ⟨rfl, Bool.eq_false_iff.2 unreached⟩

theorem queued (b : Bus) (x : Nat) : Looks (pending .sending (b.queued x)) := by
  unfold Bus.queued
  split
  · exact awaitReply b x _
  · exact ended _

theorem enqueue (b : Bus) (x : Nat) (c : ComponentId) (q : Nat) (ticket : Option Nat) :
    Looks (pending .sending (b.enqueue x c q ticket)) := by
  have lines {b : Bus} {t : Nat} : Looks (pending (ρ := SendResult) .sending
      (b, .waiting (.queueing x c q t))) :=
    waiting fun y g seen awaits => by simp [Job.Awaits, Job.waits, Sending.waits] at awaits
  unfold Bus.enqueue
  split
  · exact ended _
  · split
    · exact ended _
    · split <;> split
      · exact queued _ x
      · exact lines
      · exact queued _ x
      · exact lines

theorem deliver (b : Bus) (x : Nat) (target : Endpoint) (d : Delivery) :
    Looks (pending .sending (b.deliver x target d)) := by
  cases d with
  | push processor =>
    show Looks (pending .sending ((b.track x).push x processor))
    unfold Bus.push
    dsimp only
    split
    · exact awaitProcessor _ x _ _
    · exact ended _
  | pull q => exact enqueue (b.track x) x _ q none

theorem persisted (b : Bus) (x : Nat) (target : Endpoint) (d : Delivery)
    (t : Turn Access StoreAnswer) : Looks (pending .sending (b.persisted x target d t)) := by
  match t with
  | .waiting a => exact stored rfl
  | .ended (.ok _) => exact deliver b x target d
  | .ended (.error e) => exact ended _

theorem dispatch (b : Bus) (x : Nat) (target : Endpoint) (d : Delivery) :
    Looks (pending .sending (b.dispatch x target d)) := by
  unfold Bus.dispatch
  split
  · exact ended _
  · split
    · exact persisted _ x target d _
    · exact deliver _ x target d

theorem replied (b b' : Bus) (x : Nat) (t : Turn Access StoreAnswer) :
    Looks (pending .sending (b, b'.replied x t)) := by
  match t with
  | .waiting a => exact stored rfl
  | .ended (.ok _) => exact ended _
  | .ended (.error e) => exact ended _

theorem respond (b : Bus) (x : Nat) : Looks (pending .sending (b.respond x)) := by
  unfold Bus.respond
  dsimp only
  split
  · exact ended _
  · split
    · exact ended _
    · split
      · exact replied _ _ x _
      · exact ended _

theorem send (b : Bus) (x : Nat) : Looks (pending .sending (b.send x)) := by
  unfold Bus.send
  dsimp only
  split
  · exact ended _
  · split
    · exact respond b x
    · split
      · exact ended _
      · split
        · exact ended _
        · split
          · exact dispatch _ x _ _
          · exact ended _

theorem resumeSend (b : Bus) (c : Sending) : Looks (pending .sending (b.resumeSend c)) := by
  cases c with
  | persisting x target d a => exact persisted _ x target d _
  | processing x run deadline seen => exact awaitProcessor b x run deadline
  | queueing x c q ticket => exact enqueue b x c q (some ticket)
  | replying x deadline seen => exact awaitReply b x deadline
  | responding x a => exact replied _ _ x _

theorem resumeWatch (b : Bus) (w : Watching) : Looks (pending .watching (b.resumeWatch w)) := by
  unfold Bus.resumeWatch
  split
  · exact ended _
  · next unreached =>
    split
    · exact ended _
    · refine waiting fun y g seen awaits => ?_
      obtain ⟨rfl, rfl, rfl⟩ := Job.awaits_watching.1 awaits
      exact ⟨rfl, Bool.eq_false_iff.2 unreached⟩

theorem removed (b : Bus) (x : Nat) (t : Turn Access StoreAnswer) :
    Looks (pending .tracking (b.removed x t)) := by
  cases t with
  | waiting a => exact stored rfl
  | ended r => exact ended _

theorem follow (b : Bus) (x : Nat) (persisted : Bool) :
    Looks (pending .tracking (b.follow x persisted)) := by
  unfold Bus.follow
  split
  · split
    · split <;> exact removed _ x _
    · exact removed b x _
  · next unreached =>
    refine waiting fun y g seen awaits => ?_
    obtain ⟨rfl, rfl, rfl⟩ := Job.awaits_tracking.1 awaits
    exact ⟨rfl, Bool.eq_false_iff.2 unreached⟩

theorem resumeTracking (b : Bus) (t : Tracking) :
    Looks (pending .tracking (b.resumeTracking t)) := by
  cases t with
  | watching x persisted seen => exact follow b x persisted
  | removing x a => exact removed _ x _

theorem ask (b : Bus) (r : Request) : Looks (b.ask r) := by
  cases r with
  | send x => exact send b x
  | respond x => exact respond b x
  | watch x g limit => exact resumeWatch b _
  | accept | retrieve | drain | shutdown => exact aside fun _ => rfl
  | _ => exact nobody rfl

theorem takeUp (b : Bus) (l : Launch) : Looks (b.takeUp l) := by
  cases l with
  | tracker x persisted => exact follow b x persisted
  | closer q => exact aside fun _ => rfl
  | processor run n x awaited =>
    intro j hj y g seen awaits
    cases List.mem_singleton.1 hj
    cases awaits

theorem resume (b : Bus) (j : Job) : Looks (b.resume j) := by
  cases j with
  | sending c => exact resumeSend b c
  | watching w => exact resumeWatch b w
  | tracking t => exact resumeTracking b t
  | accepting | retrieving | draining | shuttingDown | closing => exact aside fun _ => rfl
  | processing run n x awaited =>
    intro j hj y g seen awaits
    cases List.mem_singleton.1 hj
    cases awaits

/-- If the exchange has come to the goal by the end of the turn, nobody goes to wait for that. -/
theorem satisfied {r : Bus × List Job} {x : Nat} {g : Goal} (h : Looks r)
    (reached : r.1.reached x g = true) : ∀ j ∈ r.2, ∀ seen, ¬ j.Awaits x g seen := by
  intro j hj seen awaits
  obtain ⟨rfl, unreached⟩ := h j hj x g seen awaits
  exact Bool.false_ne_true (unreached.symm.trans reached)

end Looks

namespace Traffic
variable {s s' : Traffic} {d : Deed} {j : Job} {x : Nat} {g : Goal} {seen : Progress}

/-- Who waits on an exchange after a step has waited before, or has just looked. -/
theorem Step.looks (h : s.Step d s') (hj : j ∈ s'.jobs) (awaits : j.Awaits x g seen) :
    j ∈ s.jobs ∨ seen = s'.bus.progress x ∧ g.reached seen = false := by
  cases h with
  | ask proper =>
    exact (List.mem_append.1 hj).symm.imp_right fun hj => Looks.ask _ _ j hj x g seen awaits
  | take launched =>
    exact (List.mem_append.1 hj).symm.imp_right fun hj => Looks.takeUp _ _ j hj x g seen awaits
  | resume job =>
    refine (List.mem_append.1 hj).symm.imp (fun hj => job.mem_iff.2 (.tail _ hj)) fun hj => ?_
    exact Looks.resume _ _ j hj x g seen awaits
  | finish _ job | abandon _ job => exact .inl (job.mem_iff.2 (.tail _ hj))
  | serve | pass => exact .inl hj

end Traffic

section
variable {s s' s₀ : Traffic} {l : List Transition} {j : Job} {x : Nat} {g : Goal} {seen : Progress}

/-- What somebody who waits has seen of the exchange was not what he waits for. -/
theorem Course.unreached (idle : s₀.jobs = []) (course : Course s₀ l s) (hj : j ∈ s.jobs)
    (awaits : j.Awaits x g seen) : g.reached seen = false := by
  induction course with
  | start => rw [idle] at hj; cases hj
  | step _ step ih =>
    obtain before | ⟨-, unreached⟩ := step.looks hj awaits
    · exact ih before
    · exact unreached
  | elsewhere _ _ ih => exact ih hj

/-- Who waits stays until he has his turn or gives up. -/
theorem Course.kept (course : Course s l s') (hj : j ∈ s.jobs) (awaits : j.Awaits x g seen) :
    j ∈ s'.jobs ∨ ∃ t ∈ l, t.deed = .resume j ∨ t.deed = .abandon j := by
  induction course with
  | start => exact .inl hj
  | @step l s₁ s₂ d _ step ih =>
    obtain there | ⟨t, ht, turn⟩ := ih
    · obtain there | turn | given_up | ⟨run, n, y, awaited, rfl⟩ := step.kept there
      · exact .inl there
      · exact .inr ⟨_, List.mem_cons_self, .inl turn⟩
      · exact .inr ⟨_, List.mem_cons_self, .inr given_up⟩
      · cases awaits
    · exact .inr ⟨t, .tail _ ht, turn⟩
  | elsewhere _ _ ih => exact ih

end

/-! ### What has come is heard of -/

namespace Bus
variable {b : Bus} {x : Nat} {g : Goal}

theorem resumeWatch_of_reached (reached : b.reached x g = true) (deadline : Option Nat)
    (seen : Progress) :
    b.resumeWatch ⟨x, g, deadline, seen⟩ = (b, .ended (.ok (b.progress x).status)) :=
  if_pos reached

end Bus

/-- After all of `l` has happened since `s`, in which the exchange had come to the goal. -/
structure Heard (s : Traffic) (l : List Transition) (s' : Traffic) (x : Nat) (g : Goal) :
    Prop where
  stays : g.reached (s'.bus.exchange x).progress = true
  /-- Who begins to wait, with whatever limit, has his answer at once. -/
  begins : ∀ limit,
    s'.bus.watch x g limit = (s'.bus, .ended (.ok (s'.bus.exchange x).status))
  /-- So has who looks again, also after his time is up. -/
  looks : ∀ deadline seen, s'.bus.resumeWatch ⟨x, g, deadline, seen⟩ =
    (s'.bus, .ended (.ok (s'.bus.exchange x).status))
  /-- Whatever somebody asks for, he does not go to wait for the goal. -/
  asks : ∀ r : Request, r.Proper s'.bus → ∀ j ∈ (s'.bus.ask r).2, ∀ seen, ¬ j.Awaits x g seen
  /-- Nor does anybody who is taken up. -/
  takes : ∀ before others (launch : Launch), s'.bus.launched = before ++ launch :: others →
    ∀ j ∈ ((s'.bus.leaving (before ++ others)).takeUp launch).2, ∀ seen, ¬ j.Awaits x g seen
  /-- Who has his turn does not wait for it any more. -/
  turns : ∀ j₀ ∈ s'.jobs, ∀ j ∈ (s'.bus.resume j₀).2, ∀ seen, ¬ j.Awaits x g seen
  /-- Who still waits has done so since before, and is woken by what he has not seen yet. -/
  wakes : ∀ j ∈ s'.jobs, ∀ seen, j.Awaits x g seen →
    j ∈ s.jobs ∧ s'.bus.progress x ≠ seen ∧ s'.bus.holds (.exchange x g seen) = true
  /-- Who waited then and does not any more has had his turn, or has given up. -/
  kept : ∀ j ∈ s.jobs, ∀ seen, j.Awaits x g seen →
    j ∈ s'.jobs ∨ ∃ t ∈ l, t.deed = .resume j ∨ t.deed = .abandon j
  /-- When nobody can go on, nobody waits for it. -/
  quiet : s'.Quiet → ∀ j ∈ s'.jobs, ∀ seen, ¬ j.Awaits x g seen

section
variable {s s' : Traffic} {l : List Transition} {x : Nat} {g : Goal} {j : Job} {seen : Progress}

/-- That an exchange has come to a goal can be seen from then on. -/
theorem Course.visible (course : Course s l s') (there : x < s.bus.exchanges.size)
    (shows : (s.bus.exchange x).Shows) (reached : g.reached (s.bus.exchange x).progress = true) :
    s'.bus.reached x g = true := by
  have leads := course.evolves.leads x there
  have shown : s'.bus.progress x = (s'.bus.exchange x).progress := shows.leads leads
  rw [Bus.reached, shown, leads.reached reached]

/-- Once that can be seen, nobody goes to wait for it. -/
theorem Course.awaited_before (course : Course s l s') (there : x < s.bus.exchanges.size)
    (shows : (s.bus.exchange x).Shows) (reached : g.reached (s.bus.exchange x).progress = true)
    (hj : j ∈ s'.jobs) (awaits : j.Awaits x g seen) : j ∈ s.jobs := by
  induction course with
  | start => exact hj
  | step course step ih =>
    obtain before | ⟨rfl, unreached⟩ := step.looks hj awaits
    · exact ih before
    · have visible := (course.step step).visible there shows reached
      exact absurd (unreached.symm.trans visible) Bool.false_ne_true
  | elsewhere _ _ ih => exact ih hj

/-- Who waits for it even so is woken: what he has seen last was not the goal yet. -/
theorem Course.woken {s₀ : Traffic} {l₀ : List Transition} (idle : s₀.jobs = [])
    (earlier : Course s₀ l₀ s) (before : j ∈ s.jobs) (awaits : j.Awaits x g seen)
    (visible : s'.bus.reached x g = true) :
    s'.bus.progress x ≠ seen ∧ s'.bus.holds (.exchange x g seen) = true := by
  refine ⟨?_, by rw [Bus.holds, visible, Bool.true_or]⟩
  rintro rfl
  have unreached := earlier.unreached idle before awaits
  exact Bool.false_ne_true (unreached.symm.trans visible)

theorem Course.hears {s₀ : Traffic} {l₀ : List Transition} (idle : s₀.jobs = [])
    (earlier : Course s₀ l₀ s) (later : Course s l s') (there : x < s.bus.exchanges.size)
    (shows : (s.bus.exchange x).Shows) (reached : g.reached (s.bus.exchange x).progress = true) :
    Heard s l s' x g := by
  have onward := later.evolves.leads x there
  have visible := later.visible there shows reached
  have next {d : Deed} {s'' : Traffic} (step : s'.Step d s'') : s''.bus.reached x g = true :=
    (later.step step).visible there shows reached
  have answers deadline seen : s'.bus.resumeWatch ⟨x, g, deadline, seen⟩ =
      (s'.bus, .ended (.ok (s'.bus.exchange x).status)) := by
    rw [Bus.resumeWatch_of_reached visible, show s'.bus.progress x = _ from shows.leads onward]
    rfl
  have wakes j (hj : j ∈ s'.jobs) seen (awaits : j.Awaits x g seen) : j ∈ s.jobs ∧
      s'.bus.progress x ≠ seen ∧ s'.bus.holds (.exchange x g seen) = true := by
    have before := later.awaited_before there shows reached hj awaits
    exact ⟨before, Course.woken idle earlier before awaits visible⟩
  refine
    { stays := onward.reached reached
      begins := fun limit => answers _ _
      looks := answers
      asks := fun r proper => (Looks.ask _ r).satisfied (next (.ask proper))
      takes := fun _ _ launch launched => (Looks.takeUp _ launch).satisfied (next (.take launched))
      turns := fun j₀ hj₀ => ?_
      wakes := wakes
      kept := fun j hj seen => later.kept hj
      quiet := fun quiet j hj seen awaits => ?_ }
  · obtain ⟨before, after, e⟩ := List.append_of_mem hj₀
    exact (Looks.resume _ j₀).satisfied (next (.resume (e ▸ List.perm_middle)))
  · have woken := (wakes j hj seen awaits).2.2
    exact Bool.false_ne_true ((quiet.waiting j hj _ awaits).symm.trans woken)

end

/-- An exchange that was built or restored always shows how it stands, whatever has been attempted on
it since, and what one can wait for on it stays once it has come. So whoever waits for it, or begins to
at any time later, hears of it. -/
theorem Exchange.Made.heard {x₀ : Exchange} (made : x₀.Made) :
    (∀ y, x₀.Leads y → y.published = y.progress) ∧
    (∀ y z g, x₀.Leads y → y.Leads z → Goal.reached g y.progress = true →
      g.reached z.progress = true) ∧
    ∀ s₀ l s x g l' s', s₀.jobs = [] → Course s₀ l s → x < s.bus.exchanges.size →
      x₀.Leads (s.bus.exchange x) → Goal.reached g (s.bus.exchange x).progress = true →
      Course s l' s' → Heard s l' s' x g := by
  refine ⟨fun y leads => made.shows.leads leads, fun y z g _ later => later.reached, ?_⟩
  intro s₀ l s x g l' s' idle earlier there leads reached later
  have shows : (s.bus.exchange x).Shows := made.shows.leads leads
  exact Course.hears idle earlier later there shows reached

/-! ### A reply that comes back -/

/-- What was written down of an exchange that its provider has answered. -/
def answeredSnapshot : Snapshot :=
  { version := 1, exchangeId := "order-1", pattern := .inOut, status := .active, role := .provider
    hops := 1, synchronous := false, persistent := false, source := none, target := none
    service := none, interface := none, operation := none, input := some .empty
    output := some .empty, fault := none, error := none, properties := [] }

/-- The exchange has been restored, and nobody has asked anything of the bus yet. -/
def recovered : Traffic where
  bus := { Bus.new .first id ⟨false, 1000, 1, none⟩ with
    exchanges := #[answeredSnapshot.restore .empty] }
  jobs := []
  log := []

/-- Somebody waits for the reply, the provider hands it back, and who waits has his turn. -/
theorem heard_recovered : ∃ l s s' w, (answeredSnapshot.restore .empty).Made ∧
    recovered.jobs = [] ∧ Course recovered l s ∧ .watching w ∈ s.jobs ∧
    (answeredSnapshot.restore .empty).Leads (s.bus.exchange 0) ∧
    Goal.reached .reply (s.bus.exchange 0).progress = true ∧
    Course s [⟨s, .resume (.watching w), s'⟩] s' ∧
    Heard s [⟨s, .resume (.watching w), s'⟩] s' 0 .reply ∧ s'.Quiet := by
  have made : (answeredSnapshot.restore .empty).Made := .restore _ _
  have watched := Course.start.step (s := recovered)
    (.ask (r := .watch 0 .reply none) Nat.one_pos)
  have answered := watched.step (.ask (r := .respond 0) Nat.one_pos)
  have leads := answered.evolves.leads 0 Nat.one_pos
  have woken {s : Traffic} {j : Job} (alone : s.jobs = [j]) :
      Course s [⟨s, .resume j, s.after (.resume j) (s.bus.resume j) []⟩]
        (s.after (.resume j) (s.bus.resume j) []) :=
    Course.start.step (.resume (alone ▸ .refl _))
  exact ⟨_, _, _, _, made, rfl, answered, List.mem_singleton.2 rfl, leads, rfl, woken rfl,
    made.heard.2.2 _ _ _ 0 .reply _ _ rfl answered Nat.one_pos leads rfl (woken rfl), rfl, by decide⟩

end ServiceBus
