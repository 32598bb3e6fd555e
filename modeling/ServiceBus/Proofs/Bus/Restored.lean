import ServiceBus.Proofs.Bus.Flights
import ServiceBus.Proofs.Bus.Forgotten
import ServiceBus.Proofs.Bus.Recorded

/-!
# What is restored is not followed

When a container starts again on the store of an earlier one, exchanges that were in flight then can
be restored from what was written down of them. Only a send enters an exchange in the table of
flights and gives it a tracker, and what is restored has its hop behind it and is not sent again. So
the bus overlooks it: it is never in flight, whoever fails what is in flight passes it over, and its
entry stays in the store after its end (`overlooked`), where the entry of an exchange that was sent
is removed (`not_tracked_of_restored`).
-/

namespace ServiceBus
open Bus

/-! ### Restoring -/

/-- An exchange is restored from the value `v`, under the id `id`, and gets the number `y`. -/
def Traffic.Restores (s : Traffic) (id : String) (v : Json) (y : Nat) (s' : Traffic) : Prop :=
  y = s.bus.exchanges.size ∧ ∃ e, s.bus.restored id (.ok (some v)) = .ok e ∧
    s.Step (.ask (.create e)) s'

namespace Traffic
variable {l : List Transition} {s s' s₀ : Traffic} {d : Deed} {b : Bus} {jobs : List Job}
  {x y : Nat}

theorem flying_dispatched (fresh : s₀.Fresh) (course : Course s₀ l s) (flying : s.bus.Flying x) :
    s.bus.Dispatched x := by
  induction course with
  | start =>
    obtain ⟨k, hk⟩ := flying
    rw [fresh.no_flights] at hk
    cases hk
  | @step l s s' d course step ih =>
    have ordered := course.orderly fresh.orderly
    have evolves := step.evolves
    obtain ⟨k, hk⟩ := flying
    have books := step.books ordered
    cases books with
    | keeps same => exact (ih ⟨k, same ▸ hk⟩).evolves evolves
    | @enters y target dl b v come others submits lands =>
      rw [get?_inFlight_of_lands submits lands] at hk
      split at hk
      · obtain rfl := Option.some.inj hk
        exact (submits.dispatched ordered).evolves (lands.toEvolves.from_eq rfl)
      · exact (ih ⟨k, hk⟩).evolves evolves
    | strikes _ _ inFlight_eq =>
      have inFlight_eq : s'.bus.inFlight = _ := inFlight_eq
      rw [inFlight_eq] at hk
      exact (ih ⟨k, flight_of_erase hk⟩).evolves evolves
  | elsewhere _ elsewhere ih =>
    obtain ⟨k, hk⟩ := flying
    exact (ih ⟨k, elsewhere.inFlight_eq ▸ hk⟩).evolves elsewhere.toEvolves

theorem Restores.spent {id : String} {v : Json} (h : s.Restores id v y s') (fresh : s₀.Fresh)
    (course : Course s₀ l s) (delivered : (s'.bus.exchange y).hops ≠ 0) :
    Spent [] s' y ∧ ¬ s'.Followed y := by
  obtain ⟨rfl, e, -, step⟩ := h
  have ordered := course.orderly fresh.orderly
  have new : ¬ s.bus.Dispatched s.bus.exchanges.size := fun h => Nat.lt_irrefl _ h.lt_size
  cases step with
  | ask proper =>
    refine ⟨⟨⟨fun flying => ?_, by simp⟩, ?_, ?_, Nat.pos_of_ne_zero delivered⟩, fun followed => ?_⟩
    · exact new (flying_dispatched fresh course flying)
    · show _ < (s.bus.exchanges.push e).size
      simp
    · exact Nat.eq_zero_of_not_pos fun due => new (dispatched_of_due ordered due)
    · exact new (Followed.dispatched (s := s) followed ordered)

theorem Spent.not_followed (h : Spent l s y) (ordered : s.bus.Orderly s.jobs) (step : s.Step d s')
    (alone : ¬ s.Followed y) : ¬ s'.Followed y := by
  intro followed
  have sent := h.sent
  have no_due := h.no_due
  obtain sends | due | old := step.followed_cases ordered followed
  · have unsent : (s.bus.exchange y).hops = 0 := sends.unsent
    omega
  · omega
  · exact alone old

/-! ### Its entry -/

theorem Affair.kept (h : s.Affair d b jobs) (tidy : s.bus.Tidy s.jobs) (willing : s.bus.Willing)
    (ordered : s.bus.Orderly s.jobs) (hx : x < s.bus.exchanges.size) (distinct : s.bus.Distinct x)
    (spent : Spent l s x) (alone : ¬ s.Followed x)
    (kept : s.bus.kept? (s.bus.exchange x).id ≠ none) :
    b.kept? (s.bus.exchange x).id ≠ none := by
  -- whoever is dispatched or written down before its delivery is another exchange
  have dispatched {y : Nat} {t : Endpoint} {b' : Bus} (moved : Moved s.bus y (.dispatch t) b') :
      y ≠ x := by
    rintro rfl
    have sent := spent.sent
    have unsent := moved.takes_hop.1
    omega
  have writing {y : Nat} {t : Endpoint} {dl : Delivery} {a : Access} {others : List Job}
      (job : s.jobs.Perm (.sending (.persisting y t dl a) :: others)) : y ≠ x := by
    rintro rfl
    have due := due_pos_of_carries (job.mem_iff.2 List.mem_cons_self) (beq_self_eq_true y)
    exact Nat.ne_of_gt due spent.no_due
  cases h with
  | aside gone come spares =>
    rwa [spares.rewrites.kept_eq]
  | writes moved persists call =>
    rwa [moved.kept?_persist willing call distinct (dispatched moved)]
  | delivers moved ready spares =>
    rwa [spares.kept?_tracked, moved.kept?_ready willing ready distinct (dispatched moved)]
  | refused moved persists call => exact absurd call (moved.not_refused willing persists)
  | writing job call =>
    rwa [tidy.kept?_resumeAccess job rfl rfl call distinct (writing job)]
  | written job call spares =>
    rwa [spares.kept?_tracked, tidy.kept?_resumeAccess job rfl rfl call distinct (writing job)]
  | unwritten job call stirs =>
    rwa [(Spares.of_stirs stirs).rewrites.kept_eq,
      tidy.kept?_resumeAccess job rfl rfl call distinct (writing job)]
  | @replies y _ b₁ replies moved persists =>
    have l := Later.of_moved moved
    -- a reply may be that of `x` itself, which writes the entry anew
    by_cases e : y = x
    · subst e
      have begun := begins_persist (willing.rewrites l.store) persists
      rw [← l.id_eq hx] at kept ⊢
      generalize b₁.persist y = r at begun ⊢
      obtain ⟨b', r⟩ := r
      cases begun with
      | asks _ same => rwa [same.kept_eq, (Rewrites.of_ledger moved.ledger_eq).kept_eq]
      | answered _ rewrites =>
        rw [rewrites.kept_eq, StoreCall.effect, entered_self]
        exact Option.some_ne_none _
    · have same : (b₁.persist y).1.kept? (s.bus.exchange x).id = _ :=
        moved.kept?_persist willing rfl distinct e
      rwa [same]
  | @replying y a others job =>
    have hj := job.mem_iff.2 List.mem_cons_self
    generalize call : s.bus.resumeAccess a = r
    obtain ⟨b', t⟩ := r
    by_cases e : y = x
    · subst e
      obtain ⟨-, w, hw, id_eq⟩ := tidy.suits _ hj
      obtain ⟨same, -⟩ | ⟨placed, -⟩ := put_resumeAccess tidy hj rfl hw call
      · rwa [← id_eq, same, id_eq]
      · rw [← id_eq, placed]
        exact Option.some_ne_none _
    · rwa [tidy.kept?_resumeAccess job rfl rfl call distinct e]
  | retrieves id => rwa [kept?_retrieve willing]
  | @retrieving a others job =>
    obtain ⟨directory, id, e⟩ := tidy.suits _ (job.mem_iff.2 List.mem_cons_self)
    rwa [kept?_resumeAccess_of_not_effective (tidy.placed job rfl) (by rw [e]; rfl)]
  | @tracks y persisted before after _ come launched follows =>
    have hy := ordered y (.inr ⟨_, mem_duties_of_launched launched rfl, rfl⟩)
    have willing := willing.rewrites (Later.leaving s.bus (before ++ after)).store
    have same : b.kept? (s.bus.exchange x).id = s.bus.kept? (s.bus.exchange x).id :=
      follows.kept? willing hy.lt_size distinct fun e => absurd
        (.inl ⟨persisted, e ▸ (trackers_launched launched).mem_iff.2 List.mem_cons_self⟩) alone
    rwa [same]
  | @watching y persisted seen others _ come job follows =>
    have hj := job.mem_iff.2 List.mem_cons_self
    have hy := ordered y (.inl ⟨_, hj, rfl⟩)
    rwa [follows.kept? willing hy.lt_size distinct fun e => absurd (.inr ⟨_, hj, e⟩) alone]
  | removing job call =>
    have ne := fun e => alone (.inr ⟨_, job.mem_iff.2 List.mem_cons_self, e⟩)
    rwa [tidy.kept?_resumeAccess job rfl rfl call distinct ne]
  | @removed y a others b₁ r job call =>
    have ne := fun e => alone (.inr ⟨_, job.mem_iff.2 List.mem_cons_self, e⟩)
    have same : b₁.kept? (s.bus.exchange x).id = _ :=
      tidy.kept?_resumeAccess job rfl rfl call distinct ne
    exact same ▸ kept

end Traffic

/-! ### Failing what is in flight -/

namespace Bus

theorem exchange_change_of_ne (b : Bus) {x y : Nat} (ne : y ≠ x) (c : Change) :
    (b.change x c).1.exchange y = b.exchange y := by
  simp [change, exchange, Array.getElem?_setIfInBounds_ne (Ne.symm ne)]

theorem exchange_failAll (cause : String) (xs : List Nat) (b : Bus) {y : Nat} (h : y ∉ xs) :
    (b.failAll cause xs).1.exchange y = b.exchange y := by
  induction xs generalizing b with
  | nil => rfl
  | cons x xs ih =>
    obtain ⟨ne, rest⟩ := not_or.1 (List.mem_cons.not.1 h)
    exact (ih (b.change x (.fail cause)).1 rest).trans (exchange_change_of_ne b ne _)

end Bus

namespace Traffic
variable {s s₀ s₁ s₂ : Traffic} {y : Nat} {id : String} {v : Json}

/-! ### Overlooked -/

/-- Nobody but who has it knows of `y`: it is not in flight and has no tracker, whoever fails what
is in flight leaves it as it is, and if the store had an entry of it in `s₁` it has one still. -/
structure Overlooked (s₁ s : Traffic) (y : Nat) : Prop where
  not_flying : ¬ s.bus.Flying y
  not_followed : ¬ s.Followed y
  spared : ∀ cause, (s.bus.failInFlight cause).1.exchange y = s.bus.exchange y
  kept : s.bus.Distinct y → s₁.bus.kept? (s.bus.exchange y).id ≠ none →
    s.bus.kept? (s.bus.exchange y).id ≠ none

/-- What is restored after its delivery is overlooked from then on, whatever becomes of it. -/
theorem overlooked (fresh : s₀.Fresh) (willing : s₀.bus.Willing)
    (before : Runs (fun _ _ _ => True) s₀ s) (restores : s.Restores id v y s₁)
    (delivered : (s₁.bus.exchange y).hops ≠ 0) (after : Runs (fun _ _ _ => True) s₁ s₂) :
    Overlooked s₁ s₂ y := by
  obtain ⟨l, course⟩ := before.course
  obtain ⟨spent, alone⟩ := restores.spent fresh course delivered
  obtain ⟨-, e, -, created⟩ := restores
  suffices h : Runs (fun _ _ _ => True) s₀ s₂ ∧ (∃ l, Spent l s₂ y) ∧ ¬ s₂.Followed y ∧
      (s₂.bus.Distinct y → s₁.bus.kept? (s₂.bus.exchange y).id ≠ none →
        s₂.bus.kept? (s₂.bus.exchange y).id ≠ none) by
    obtain ⟨-, ⟨l, spent⟩, alone, kept⟩ := h
    refine ⟨spent.not_flying, alone, fun cause => exchange_failAll cause _ _ fun flying => ?_, kept⟩
    exact spent.not_flying ((Table.mem_values_iff _).1 flying)
  -- along what follows nothing of `y` becomes due, so nobody ever sends it and nobody tracks it
  induction after with
  | refl => exact ⟨before.step created trivial, ⟨[], spent⟩, alone, fun _ kept => kept⟩
  | @step s₂ s₃ d after step _ ih =>
    obtain ⟨run, ⟨l, spent⟩, alone, kept⟩ := ih
    have ordered := run.orderly fresh
    obtain ⟨affair, later⟩ := run.affair fresh willing step
    refine ⟨run.step step trivial, ⟨_, spent.step ordered step⟩,
      spent.not_followed ordered step alone, fun distinct => ?_⟩
    have distinct := distinct.of_later later spent.lt_size
    rw [later.id_eq spent.lt_size]
    exact fun there => affair.kept (run.tidy fresh willing).1 (run.willing fresh willing) ordered
      spent.lt_size distinct spent alone (kept distinct there)

/-- The request of `keeping` when it has been sent. -/
def request : Exchange := ((keeping (.inMemory "exchanges")).bus.send 0).1.exchange 0

/-- A bus that starts with the store that another one has left when it had sent the request. -/
def restarted : Traffic where
  bus := { (keeping (.inMemory "exchanges")).bus with
    exchanges := #[]
    stores := ((keeping (.inMemory "exchanges")).bus.send 0).1.stores }
  jobs := []
  log := []

theorem fresh_restarted : restarted.Fresh := ⟨rfl, rfl, rfl, rfl⟩

theorem willing_restarted : restarted.bus.Willing :=
  ⟨fun n hn => by cases hn; exact Nat.one_pos, rfl⟩

def asked (s : Traffic) (r : Request) : Traffic := s.after (.ask r) (s.bus.ask r) s.jobs

def recalled : Traffic := restarted.asked (.retrieve "")

def resumed : Traffic := recalled.asked (.create request)

/-- `restarted` when the request has been answered and its consumer is done with it. -/
def finished : Traffic :=
  ((resumed.asked (.change 0 (.setOut .empty))).asked (.respond 0)).asked (.change 0 .done)

theorem runs_recalled : Runs (fun _ _ _ => True) restarted recalled :=
  .step .refl (.ask trivial) trivial

theorem restores_resumed :
    recalled.Restores "" request.snapshot.toJson.canonical 0 resumed :=
  ⟨rfl, request, rfl, .ask trivial⟩

theorem runs_finished : Runs (fun _ _ _ => True) resumed finished := by
  have start : Runs (fun _ _ _ => True) resumed resumed := .refl
  have replied := start.step (.ask (r := .change 0 (.setOut .empty)) ⟨Nat.one_pos, rfl⟩) trivial
  have responded := replied.step (.ask (r := .respond 0) Nat.one_pos) trivial
  exact responded.step (.ask (r := .change 0 .done) ⟨Nat.one_pos, rfl⟩) trivial

theorem quiet_finished : finished.Quiet := ⟨rfl, by decide⟩

theorem overlooked_restarted : restarted.Fresh ∧ restarted.bus.Willing ∧
    Runs (fun _ _ _ => True) restarted recalled ∧
    recalled.Restores "" request.snapshot.toJson.canonical 0 resumed ∧
    (resumed.bus.exchange 0).status = .active ∧ (resumed.bus.exchange 0).hops ≠ 0 ∧
    Runs (fun _ _ _ => True) resumed finished ∧ (finished.bus.exchange 0).status = .done ∧
    finished.Quiet ∧ Overlooked resumed finished 0 :=
  ⟨fresh_restarted, willing_restarted, runs_recalled, restores_resumed, rfl, by decide,
    runs_finished, rfl, quiet_finished,
    overlooked fresh_restarted willing_restarted runs_recalled restores_resumed (by decide)
      runs_finished⟩

/-- What is restored after its delivery is not in flight, and its entry outlives it. -/
theorem not_tracked_of_restored : ¬ ∀ (s₀ s s₁ s₂ : Traffic) (id : String) (v : Json) (y : Nat),
    s₀.Fresh → s₀.bus.Willing → Runs (fun _ _ _ => True) s₀ s →
    s.bus.kept? id = some (s.bus.form id v) → s.Restores id v y s₁ →
    (s₁.bus.exchange y).status = .active → (s₁.bus.exchange y).hops ≠ 0 →
    Runs (fun _ _ _ => True) s₁ s₂ → s₂.bus.Distinct y →
    ((s₂.bus.exchange y).status = .active → s₂.bus.Flying y) ∧
      ((s₂.bus.exchange y).status ≠ .active → s₂.Quiet → s₂.bus.kept? id = none) := by
  intro claimed
  have distinct : finished.bus.Distinct 0 := fun y hy _ => Nat.lt_one_iff.1 hy
  obtain ⟨-, gone⟩ := claimed restarted recalled resumed finished "" _ 0 fresh_restarted
    willing_restarted runs_recalled rfl restores_resumed rfl (by decide) runs_finished distinct
  have still : finished.bus.kept? "" ≠ none := by decide
  exact still (gone (by decide) quiet_finished)

end Traffic
end ServiceBus
