import ServiceBus.Proofs.Bus.Courses
import ServiceBus.Proofs.Bus.Forgotten

/-!
# What persists is written down before it is given away

Before an exchange that is to persist is given to a processor or put into a queue the store has
answered that it has written it down, as it is on its way to its provider. If the store refuses, the
send ends with that, the exchange has ended, and nobody is ever given it (`written_ahead`).

The invariant is `Ahead`. Until the store has answered, the send alone carries the exchange, and the
call that it waits for is the one that writes it (`Noted`). The only delivery there will be is the
one that is due then (`Leg.due_le`): when the store refuses it is never made (`Denied`), and when the
exchange is on offer, in a line for however long, the answer is behind it (`Written`).
-/

namespace ServiceBus

/-! ### What is written -/

/-- The written snapshot is of the exchange `id` on its way to this provider. -/
structure Json.Announces (v : Json) (id : String) (target : Endpoint) : Prop where
  id_eq : v.get? "exchangeId" = some (.text id)
  role : v.get? "role" = some (.text Role.provider.display)
  hops : v.get? "hops" = some (.nat 1)
  target : v.get? "target" = some target.id.toJson.canonical

theorem Json.announces_snapshot {y : Exchange} {target : Endpoint} (owner : y.owner = .provider)
    (hops : y.hops = 1) (h : y.target = some target) :
    y.snapshot.toJson.canonical.Announces y.id target := by
  have target_eq : y.snapshot.toJson.get? "target" = some target.id.toJson := by
    show some (Json.ofOption EndpointId.toJson (y.target.map (·.id))) = _
    rw [h]
    rfl
  constructor <;> rw [get?_canonical_snapshot]
  · rfl
  · rw [← owner]
    rfl
  · rw [← hops]
    rfl
  · rw [target_eq]
    rfl

theorem DirectoryCall.writing?_resume {c c' : DirectoryCall} {r : Except DiskError Document}
    (h : c.resume r = .waiting c') : c'.writing? = c.writing? := by
  cases r with
  | ok d => cases c <;> cases h <;> rfl
  | error e =>
    cases c with
    | reading | removing => cases e <;> cases h
    | _ => cases h <;> rfl

namespace Bus
variable {b b' : Bus} {x : Nat} {target : Endpoint} {a a' : Access}

theorem writing?_of_waiting (call : b.resumeAccess a = (b', .waiting a')) :
    a'.call.writing? = a.call.writing? := by
  obtain ⟨-, rfl⟩ | ⟨-, -, -, hr⟩ := waiting_resumeAccess call
  · rfl
  · exact DirectoryCall.writing?_resume hr

theorem writing?_callStore {n : Nat} {id : String} {v : Json}
    (call : b.callStore n (.put id v) = (b', .waiting a)) :
    ∃ w, a.call.writing? = some w ∧ w.id = id ∧ w.data = v := by
  rw [callStore_eq] at call
  cases shelf : (b.store n).shelf with
  | memory m =>
    rw [Store.start_of_memory shelf] at call
    cases call
  | directory path features =>
    rw [Store.start_of_directory shelf] at call
    cases call
    exact ⟨_, rfl, rfl, rfl⟩

theorem Dispatched.target_later (h : b.Dispatched x) (he : Evolves b b') :
    (b'.exchange x).target = (b.exchange x).target := by
  obtain ⟨y, t, underway⟩ := h.sent
  exact (he.leads x h.lt_size).onward.target_kept underway.hops_pos

/-- The call writes `x` down as it is on its way to its target. -/
structure Noted (b : Bus) (x : Nat) (target : Endpoint) (a : Access) : Prop where
  dispatched : b.Dispatched x
  persists : b.persists x = true
  target_eq : (b.exchange x).target = some target
  writes : ∃ w, a.call.writing? = some w ∧ w.id = (b.exchange x).id ∧
    w.data.Announces (b.exchange x).id target

theorem Noted.later (h : b.Noted x target a) (he : Evolves b b')
    (hs : b'.settings = b.settings) : b'.Noted x target a where
  dispatched := h.dispatched.evolves he
  persists := (persists_later he hs h.dispatched.lt_size).trans h.persists
  target_eq := (h.dispatched.target_later he).trans h.target_eq
  writes := by
    rw [(he.leads x h.dispatched.lt_size).onward.id_eq]
    exact h.writes

theorem Moved.announces {b₁ : Bus} (h : Moved b x (.dispatch target) b₁) :
    (b₁.exchange x).target = some target ∧
      (b₁.exchange x).snapshot.toJson.canonical.Announces (b₁.exchange x).id target := by
  obtain ⟨y, hy, e⟩ := h.moves
  have target_eq : (b₁.exchange x).target = some target := by
    rw [e]
    cases hy
    rfl
  obtain ⟨ne, -⟩ | ⟨-, -, -, owner, hops⟩ := h.dispatch_cases x
  · exact absurd rfl ne
  · exact ⟨target_eq, Json.announces_snapshot owner hops target_eq⟩

end Bus

/-! ### Answers -/

namespace Transition
variable {t : Transition} {x : Nat} {v : Json} {b : Bus} {r : StoreAnswer}
open Bus

/-- The store answers `r` to the send of `x`, which has it write down `v` under the id of `x`; the
answer finds `b`, and the send goes on from there. -/
inductive Answers (t : Transition) (x : Nat) (v : Json) (b : Bus) (r : StoreAnswer) : Prop
  /-- The store is in memory. -/
  | at_once {target : Endpoint} {dl : Delivery} {b₁ : Bus} {n : Nat}
    (deed : t.deed = .ask (.send x)) (moved : Moved t.before.bus x (.dispatch target) b₁)
    (persists : b₁.persists x = true) (store_eq : b₁.settings.store = some n)
    (data_eq : (b₁.exchange x).snapshot.toJson.canonical = v)
    (call : b₁.callStore n (.put (b₁.exchange x).id v) = (b, .ended r))
    (turn : t.before.bus.send x = b.persisted x target dl (.ended r))
  /-- The store is in a directory, and the last operation of the write is done. -/
  | at_last {target : Endpoint} {dl : Delivery} {a : Access} {w : Writing} {others : List Job}
    (deed : t.deed = .resume (.sending (.persisting x target dl a)))
    (job : t.before.jobs.Perm (.sending (.persisting x target dl a) :: others))
    (writing : a.call.writing? = some w) (id_eq : w.id = (t.before.bus.exchange x).id)
    (data_eq : w.data = v) (call : t.before.bus.resumeAccess a = (b, .ended r))

/-- What the send whose turn it is returns, if it does. -/
def returns? (t : Transition) : Option SendResult :=
  let turn : Turn Sending SendResult → Option SendResult
    | .ended r => some r
    | .waiting _ => none
  match t.deed with
  | .ask (.send x) => turn (t.before.bus.send x).2
  | .resume (.sending c) => turn (t.before.bus.resumeSend c).2
  | _ => none

end Transition

namespace Traffic
variable {s s' : Traffic} {d : Deed} {b : Bus} {others : List Job} {x : Nat} {target : Endpoint}
  {dl : Delivery} {r : StoreAnswer} {a : Access}
open Bus Transition

theorem Submits.noted (h : s.Submits x target dl d b (.waiting a) others)
    (old : ∀ target dl a, .sending (.persisting x target dl a) ∈ s.jobs →
      s.bus.Noted x target a) : b.Noted x target a := by
  cases h with
  | @begun b₁ _ _ moved persists call =>
    obtain ⟨target_eq, announces⟩ := moved.announces
    have calls := Calls.of_turn call (.persist b₁ x)
    have exchange := calls.exchange_eq x
    obtain ⟨n, store⟩ := store_of_persists persists
    rw [persist_of_store store] at call
    obtain ⟨w, writing, id_eq, data_eq⟩ := writing?_callStore call
    refine ⟨moved.dispatched.evolves calls.evolves, ?_, exchange ▸ target_eq, w, writing, ?_, ?_⟩
    · rwa [persists_later calls.evolves calls.settings_eq moved.dispatched.lt_size]
    · rw [exchange, id_eq]
    · rw [exchange, data_eq]
      exact announces
  | resumed job call =>
    have calls := Calls.of_turn call (.resumeAccess s.bus _)
    have noted := (old _ _ _ (job.mem_iff.2 List.mem_cons_self)).later calls.evolves
      calls.settings_eq
    exact { noted with writes := writing?_of_waiting call ▸ noted.writes }

theorem Submits.answers (h : s.Submits x target dl d b (.ended r) others)
    (persists : b.persists x = true)
    (old : ∀ target dl a, .sending (.persisting x target dl a) ∈ s.jobs →
      s.bus.Noted x target a) :
    (b.exchange x).target = some target ∧
      ∃ v, Answers ⟨s, d, s'⟩ x v b r ∧ v.Announces (b.exchange x).id target := by
  cases h with
  | spared _ spared => cases spared.symm.trans persists
  | @begun b₁ _ _ moved persists call turn =>
    obtain ⟨target_eq, announces⟩ := moved.announces
    have calls := Calls.of_turn call (.persist b₁ x)
    obtain ⟨n, store⟩ := store_of_persists persists
    rw [persist_of_store store] at call
    rw [calls.exchange_eq]
    exact ⟨target_eq, _, .at_once rfl moved persists store rfl call turn, announces⟩
  | resumed job call =>
    have calls := Calls.of_turn call (.resumeAccess s.bus _)
    obtain ⟨-, -, target_eq, w, writing, id_eq, announces⟩ :=
      old _ _ _ (job.mem_iff.2 List.mem_cons_self)
    rw [calls.exchange_eq]
    exact ⟨target_eq, w.data, .at_last rfl job writing id_eq rfl call, announces⟩

/-- When the store refuses, the send ends with that, and so does the exchange. -/
theorem Step.refused {v : Json} {e : StoreError} (h : s.Step d s')
    (ordered : s.bus.Orderly s.jobs) (answers : Answers ⟨s, d, s'⟩ x v b (.error e)) :
    Transition.returns? ⟨s, d, s'⟩ = some (.error (.store e)) ∧
      (∃ target dl, s.Submits x target dl d b (.ended (.error e)) s'.jobs) ∧
      Rests b s'.bus ∧ x < b.exchanges.size ∧ (s'.bus.exchange x).status ≠ .active := by
  have ends (hx : x < b.exchanges.size) (target : Endpoint) (dl : Delivery) :
      Rests b (b.persisted x target dl (.ended (.error e))).1 ∧ x < b.exchanges.size ∧
        ((b.persisted x target dl (.ended (.error e))).1.exchange x).status ≠ .active :=
    ⟨.failQuietly b x _, hx, terminal_failQuietly hx _⟩
  cases answers with
  | @at_once target dl b₁ n deed moved persists store data_eq call turn =>
    cases deed
    have persisting : b₁.persist x = (b, .ended (.error e)) := by
      rw [persist_of_store store, data_eq, call]
    have hx := (moved.dispatched.evolves (Calls.of_turn persisting (.persist _ x)).evolves).lt_size
    cases h with
    | ask proper =>
      have asked : s.bus.ask (.send x) = ((b.persisted x target dl (.ended (.error e))).1, []) := by
        show pending .sending (s.bus.send x) = _
        exact congrArg (pending .sending) turn
      refine ⟨?_, ?_⟩
      · show (match (s.bus.send x).2 with | .ended r => some r | .waiting _ => none) = _
        rw [show s.bus.send x = _ from turn]
        rfl
      · rw [Traffic.after, asked]
        exact ⟨⟨target, dl, .begun moved persists persisting turn⟩, ends hx target dl⟩
  | @at_last target dl a w others deed job writing id_eq data_eq call =>
    cases deed
    have dispatched := ordered x (.inl ⟨_, job.mem_iff.2 List.mem_cons_self, rfl⟩)
    have hx := (Calls.of_turn call (.resumeAccess s.bus a)).lt_size dispatched.lt_size
    have turn : s.bus.resumeSend (.persisting x target dl a) =
        b.persisted x target dl (.ended (.error e)) := by
      show (s.bus.resumeAccess a).1.persisted x target dl (s.bus.resumeAccess a).2 = _
      rw [show s.bus.resumeAccess a = _ from call]
    cases h with
    | @resume j others' job' =>
      have resumed : s.bus.resume (.sending (.persisting x target dl a)) =
          ((b.persisted x target dl (.ended (.error e))).1, []) :=
        congrArg (pending .sending) turn
      refine ⟨?_, ?_⟩
      · show (match (s.bus.resumeSend (.persisting x target dl a)).2 with
          | .ended r => some r | .waiting _ => none) = _
        rw [turn]
        rfl
      · rw [Traffic.after, resumed]
        exact ⟨⟨target, dl, .resumed job' call⟩, ends hx target dl⟩

end Traffic

/-! ### Courses -/

theorem Bus.Lands.not_persisting {b b' : Bus} {x : Nat} {come : List Job} (h : Lands b x b' come)
    (target : Endpoint) (dl : Delivery) (a : Access) :
    .sending (.persisting x target dl a) ∉ come := by
  cases h with
  | launches _ idle | enters _ _ _ _ idle =>
    intro hj
    cases idle _ hj
  | linesUp | refused => simp

namespace Transition
variable {t : Transition} {x : Nat} {target : Endpoint} {dl : Delivery} {a : Access}
open Bus

theorem Leg.persisting (h : t.Leg x)
    (hj : .sending (.persisting x target dl a) ∈ t.after.jobs) :
    .sending (.persisting x target dl a) ∈ t.before.jobs ∨
      ∃ others, t.before.Submits x target dl t.deed t.after.bus (.waiting a) others := by
  cases h with
  | unmoved h => exact .inl (h.carried _ hj (beq_self_eq_true x))
  | waits submits jobs =>
    rw [jobs] at hj
    rcases List.mem_cons.1 hj with e | hj
    · cases e
      exact .inr ⟨_, submits⟩
    · exact .inl (submits.mem_jobs hj)
  | refused submits => exact .inl (submits.mem_jobs hj)
  | lands submits lands jobs =>
    rw [jobs] at hj
    exact .inl (submits.mem_jobs ((List.mem_append.1 hj).resolve_left
      (lands.not_persisting _ _ _)))
  | queues _ job lands jobs =>
    rw [jobs] at hj
    exact .inl (job.mem_iff.2 (List.mem_cons_of_mem _
      ((List.mem_append.1 hj).resolve_left (lands.not_persisting _ _ _))))
  | begins _ _ _ jobs =>
    rw [jobs] at hj
    exact .inl ((List.mem_cons.1 hj).resolve_left nofun)

theorem not_flying_of_rests {b b' : Bus} (rests : Rests b b') (h : ¬ b.Flying x) :
    ¬ b'.Flying x := by
  rintro ⟨k, hk⟩
  exact h ⟨k, rests.inFlight_eq ▸ hk⟩

/-- A step after which `x` has not been sent, or is still being written down, gives it to nobody:
its only delivery would have been due before. -/
theorem Leg.unseen (h : t.Leg x) (evolves : Evolves t.before.bus t.after.bus)
    (due : t.before.due x ≤ min (t.before.bus.exchange x).hops 1) (unseen : ¬ t.before.bus.Flying x)
    (before : (t.after.bus.exchange x).hops = 0 ∨
      ∃ target dl a, .sending (.persisting x target dl a) ∈ t.after.jobs) :
    ¬ t.Gives x ∧ ¬ t.after.bus.Flying x := by
  have hops := evolves.hops_le x
  unfold Traffic.due at due
  -- once it is given away, the hop is spent and no send carries it
  have spent {come others : List Job} (jobs : t.after.jobs = come ++ others)
      (come_not : ∀ target dl a, .sending (.persisting x target dl a) ∉ come)
      (none : others.countP (·.carries x) = 0) (sent : 1 ≤ (t.after.bus.exchange x).hops) :
      False := by
    obtain unsent | ⟨target, dl, a, hj⟩ := before
    · omega
    · rw [jobs] at hj
      obtain hj | hj := List.mem_append.1 hj
      · exact come_not _ _ _ hj
      · exact List.countP_eq_zero.1 none _ hj (beq_self_eq_true x)
  cases h with
  | unmoved h => exact ⟨h.not_gives, fun ⟨k, hk⟩ => unseen ⟨k, h.flights k hk⟩⟩
  | waits submits =>
    exact ⟨not_gives_of_rests submits.rests (submits.begins_eq x),
      not_flying_of_rests submits.rests unseen⟩
  | refused submits rests =>
    have rests := submits.rests.trans rests
    exact ⟨not_gives_of_rests rests (submits.begins_eq x), not_flying_of_rests rests unseen⟩
  | @lands target dl b v come others submits lands jobs =>
    have submitted := submits.due_le
    have landed : (b.exchange x).hops ≤ _ := lands.toEvolves.hops_le x
    exact (spent jobs lands.not_persisting (by omega) (by omega)).elim
  | queues deed job lands jobs =>
    rw [job.countP_eq, List.countP_cons_of_pos (by simp [Job.carries])] at due
    exact (spent jobs lands.not_persisting (by omega) (by omega)).elim
  | begins deed launched bus jobs =>
    have runs := runs_pos launched
    exact (spent (jobs.trans List.singleton_append.symm) (by simp) (by omega) (by omega)).elim

end Transition

namespace Traffic
variable {l : List Transition} {s s' s₀ : Traffic} {d : Deed} {b : Bus} {x : Nat}
open Bus Transition

/-- `x` is on its way, and some store has been through with writing it down before anybody was
given it. -/
def Written (l : List Transition) (b : Bus) (x : Nat) : Prop :=
  ∃ u ∈ l, ∃ v b' o target, u.Answers x v b' (.ok o) ∧ Rests u.before.bus b' ∧
    (b.exchange x).target = some target ∧ v.Announces (b.exchange x).id target

/-- The store has refused to write `x` down: it has ended and nobody is going to be given it. -/
structure Denied (l : List Transition) (s : Traffic) (x : Nat) : Prop extends Spent l s x where
  ended : (s.bus.exchange x).status ≠ .active

/-- What is true of the delivery of `x` all along a course. -/
structure Ahead (l : List Transition) (s : Traffic) (x : Nat) : Prop where
  due_le : s.due x ≤ min (s.bus.exchange x).hops 1
  unseen : ((s.bus.exchange x).hops = 0 ∨
    ∃ target dl a, .sending (.persisting x target dl a) ∈ s.jobs) → Unseen l s x
  noted : ∀ target dl a, .sending (.persisting x target dl a) ∈ s.jobs → s.bus.Noted x target a
  written : s.Offered x → s.bus.persists x = true → Written l s.bus x
  denied : ∀ t ∈ l, ∀ v b e, t.Answers x v b (.error e) → Denied l s x

theorem Written.later {l' : List Transition} {b' : Bus} (h : Written l b x)
    (dispatched : b.Dispatched x) (he : Evolves b b') (hl : ∀ u ∈ l, u ∈ l') :
    Written l' b' x := by
  obtain ⟨u, hu, v, b₁, o, target, answers, rests, target_eq, announces⟩ := h
  refine ⟨u, hl u hu, v, b₁, o, target, answers, rests,
    (dispatched.target_later he).trans target_eq, ?_⟩
  rwa [(he.leads x dispatched.lt_size).onward.id_eq]

theorem Fresh.ahead (h : s.Fresh) (x : Nat) : Ahead [] s x where
  due_le := by simp [Traffic.due, h.no_jobs, h.no_launches]
  unseen _ := by
    refine ⟨fun ⟨k, hk⟩ => ?_, by simp⟩
    rw [h.no_flights] at hk
    cases hk
  noted _ _ _ hj := by
    rw [h.no_jobs] at hj
    cases hj
  written offered := by
    obtain ⟨c, q, ticket, hj⟩ | launched := offered
    · rw [h.no_jobs] at hj
      cases hj
    · simp [h.no_launches] at launched
  denied := by simp

namespace Ahead

theorem unseen_of_submits (h : Ahead l s x) {target : Endpoint} {dl : Delivery}
    {r : Turn Access StoreAnswer} {others : List Job}
    (submits : s.Submits x target dl d b r others) : Unseen l s x := by
  refine h.unseen ?_
  cases submits with
  | spared moved | begun moved => exact .inl moved.takes_hop.1
  | resumed job => exact .inr ⟨_, _, _, job.mem_iff.2 List.mem_cons_self⟩

/-- Whoever is given `x`, or may be, is given it when it is written. -/
theorem given (h : Ahead l s x) (ordered : s.bus.Orderly s.jobs) (step : s.Step d s')
    (new : Transition.Gives ⟨s, d, s'⟩ x ∨ s'.Offered x) (persists : s'.bus.persists x = true) :
    Written (⟨s, d, s'⟩ :: l) s'.bus x := by
  have evolves := step.evolves
  have settings := step.settings_eq ordered
  obtain offered | ⟨target, dl, b, v, come, others, submits, lands⟩ :=
    (step.leg ordered x).offered new
  · have dispatched := offered.dispatched ordered
    rw [persists_later evolves settings dispatched.lt_size] at persists
    exact (h.written offered persists).later dispatched evolves fun u hu => .tail _ hu
  · have evolves : Evolves b s'.bus := lands.toEvolves.from_eq rfl
    have settings : s'.bus.settings = b.settings := lands.settings_eq
    have dispatched := submits.dispatched ordered
    rw [persists_later evolves settings dispatched.lt_size] at persists
    obtain ⟨target_eq, w, answers, announces⟩ : _ ∧ ∃ w, Answers ⟨s, d, s'⟩ x w b _ ∧ _ :=
      submits.answers persists h.noted
    have written : Written (⟨s, d, s'⟩ :: l) b x :=
      ⟨_, List.mem_cons_self, w, b, v, target, answers, submits.rests, target_eq, announces⟩
    exact written.later dispatched evolves fun _ hu => hu

theorem unseen_of_refused (h : Ahead l s x) (ordered : s.bus.Orderly s.jobs) (step : s.Step d s')
    {v : Json} {e : StoreError} (answers : Answers ⟨s, d, s'⟩ x v b (.error e)) :
    Denied (⟨s, d, s'⟩ :: l) s' x := by
  obtain ⟨-, ⟨target, dl, submits⟩, rests, hx, ended⟩ := step.refused ordered answers
  have due := h.due_le
  have submitted := submits.due_le
  have hops := rests.hops_le x
  -- the turn spends the one delivery that is due, and begins none
  have rests' := submits.rests.trans rests
  have unseen := h.unseen_of_submits submits
  have not_flying := not_flying_of_rests rests' unseen.not_flying
  have runs := rests'.runs_eq x
  unfold Traffic.due at due
  refine ⟨⟨⟨not_flying, List.forall_mem_cons.2 ⟨⟨?_, not_flying⟩, unseen.earlier⟩⟩,
    Nat.lt_of_lt_of_le hx rests.size_le, ?_, by omega⟩, ended⟩
  · exact not_gives_of_rests rests' (submits.begins_eq x)
  · rw [Traffic.due, runs]
    omega

end Ahead

theorem Denied.step (h : Denied l s x) (ordered : s.bus.Orderly s.jobs) (step : s.Step d s') :
    Denied (⟨s, d, s'⟩ :: l) s' x where
  toSpent := h.toSpent.step ordered step
  ended active := h.ended (step.evolves.active_before active)

theorem Ahead.step (h : Ahead l s x) (ordered : s.bus.Orderly s.jobs) (step : s.Step d s') :
    Ahead (⟨s, d, s'⟩ :: l) s' x where
  due_le := by
    have before := h.due_le
    have due : s'.due x + _ + min (s.bus.exchange x).hops 1 ≤
        s.due x + min (s'.bus.exchange x).hops 1 := (step.leg ordered x).due_le step.evolves
    omega
  unseen before := by
    have unseen : Unseen l s x := by
      obtain unsent | ⟨target, dl, a, hj⟩ := before
      · exact h.unseen (.inl (Nat.le_zero.1 (unsent ▸ step.evolves.hops_le x)))
      · obtain old | ⟨others, submits⟩ := (step.leg ordered x).persisting hj
        · exact h.unseen (.inr ⟨target, dl, a, old⟩)
        · exact h.unseen_of_submits submits
    have now := (step.leg ordered x).unseen step.evolves h.due_le unseen.not_flying before
    exact ⟨now.2, List.forall_mem_cons.2 ⟨now, unseen.earlier⟩⟩
  noted target dl a hj := by
    obtain old | ⟨others, submits⟩ := (step.leg ordered x).persisting hj
    · exact (h.noted target dl a old).later step.evolves (step.settings_eq ordered)
    · exact submits.noted h.noted
  written offered := h.given ordered step (.inr offered)
  denied t ht v b e answers := by
    rcases List.mem_cons.1 ht with rfl | ht
    · exact h.unseen_of_refused ordered step answers
    · exact (h.denied t ht v b e answers).step ordered step

theorem Denied.elsewhere (h : Denied l s x) (e : s.bus.Elsewhere b) :
    Denied l { s with bus := b } x where
  toSpent := h.toSpent.elsewhere e
  ended active := h.ended (e.toEvolves.active_before active)

theorem Ahead.elsewhere (h : Ahead l s x) (ordered : s.bus.Orderly s.jobs)
    (e : s.bus.Elsewhere b) : Ahead l { s with bus := b } x := by
  have hops : (s.bus.exchange x).hops ≤ (b.exchange x).hops := e.toEvolves.hops_le x
  refine ⟨?_, fun before => ?_, fun target dl a hj => ?_, fun offered persists => ?_,
    fun t ht v b e' answers => (h.denied t ht v b e' answers).elsewhere e⟩
  · have due := h.due_le
    show _ ≤ min (b.exchange x).hops 1
    rw [due_elsewhere s e x]
    omega
  · have before := before.imp_left fun unsent => Nat.le_zero.1 (Nat.le_trans hops (Nat.le_of_eq unsent))
    exact (h.unseen before).elsewhere e
  · exact (h.noted target dl a hj).later e.toEvolves e.settings_eq
  · have offered : s.Offered x := offered.imp_right fun launched => by
      rwa [e.launched_eq] at launched
    have dispatched := offered.dispatched ordered
    have persists : b.persists x = true := persists
    rw [persists_later e.toEvolves e.settings_eq dispatched.lt_size] at persists
    exact (h.written offered persists).later dispatched e.toEvolves fun u hu => hu

theorem ahead (fresh : s₀.Fresh) (course : Course s₀ l s) (x : Nat) : Ahead l s x := by
  induction course with
  | start => exact fresh.ahead x
  | step course step ih => exact ih.step (course.orderly fresh.orderly) step
  | elsewhere course elsewhere ih => exact ih.elsewhere (course.orderly fresh.orderly) elsewhere

/-- How `x` is written down on a course, and what comes of a refusal. -/
structure WrittenAhead (l : List Transition) (s : Traffic) (x : Nat) : Prop where
  /-- When `x` is given away its snapshot has been written. -/
  written : ∀ later t earlier, l = later ++ t :: earlier → t.Gives x →
    t.after.bus.persists x = true → Written (t :: earlier) t.after.bus x
  /-- When the store refuses to write it the send returns that, `x` has ended, and nobody has been
  given `x` or is. -/
  refused : ∀ t ∈ l, ∀ v b e, t.Answers x v b (.error e) →
    t.returns? = some (.error (.store e)) ∧ (t.after.bus.exchange x).status ≠ .active ∧
      Unseen l s x

/-- An exchange that is to persist is written down before anybody is given it; when that fails,
nobody ever is. -/
theorem written_ahead (fresh : s₀.Fresh) (course : Course s₀ l s) (x : Nat) :
    WrittenAhead l s x where
  written later t earlier hl gives := by
    obtain ⟨before, step⟩ := course.split hl
    exact (ahead fresh before x).given (before.orderly fresh.orderly) step (.inl gives)
  refused t ht v b e answers := by
    obtain ⟨later, earlier, hl⟩ := List.append_of_mem ht
    obtain ⟨before, step⟩ := course.split hl
    obtain ⟨returns, -, -, -, ended⟩ := step.refused (before.orderly fresh.orderly) answers
    exact ⟨returns, ended, ((ahead fresh course x).denied t ht v b e answers).toUnseen⟩

theorem written_ahead_keeping : ∃ t, (keeping (.inMemory "exchanges")).Fresh ∧
    Course (keeping (.inMemory "exchanges")) [t] t.after ∧ t.Gives 0 ∧
    t.after.bus.persists 0 = true ∧ WrittenAhead [t] t.after 0 := by
  have fresh := fresh_keeping (.inMemory "exchanges")
  have idle : Course (keeping (.inMemory "exchanges")) [] _ := .start
  have course := idle.step (.ask (r := .send 0) Nat.one_pos)
  exact ⟨_, fresh, course, .launches (by decide), rfl, written_ahead fresh course 0⟩

end Traffic
end ServiceBus
