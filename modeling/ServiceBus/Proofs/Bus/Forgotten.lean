import ServiceBus.Proofs.Bus.Agreement
import ServiceBus.Proofs.Bus.Tracked

/-!
# What has ended is forgotten

The tracker of a persisted exchange removes its entry from the store when the exchange has ended.
After that only the late write of a reply can bring the entry back: a reply is handed back before it
is written down, so the consumer may end the exchange meanwhile and the removal may come first
(`not_forgotten_of_late`). Unless that happens (`InTime`), the store has no entry of an exchange
whose delivery is over (`forgotten_of_over`). The invariant is `Bus.Tended`; what a step makes of it
is told kind by kind in the lemmas of `Tending`.
-/

namespace ServiceBus

/-- The job sees the delivery of `x`, which is persisted, through to the removal of its entry. -/
def Job.escorts (x : Nat) : Job → Bool
  | .sending (.persisting y _ _ _) | .tracking (.watching y true _) | .tracking (.removing y _) =>
    y == x
  | _ => false

theorem Job.not_escorts_of_isIdle {j : Job} (h : j.isIdle = true) (x : Nat) :
    j.escorts x = false := by
  match j, h with
  | .sending (.processing ..), _ | .sending (.queueing ..), _ | .sending (.replying ..), _
  | .watching _, _ | .accepting _, _ | .draining _, _ | .shuttingDown _, _ | .closing _, _
  | .processing .., _ => rfl

/-- Of the calls that can be given up only a write sees a delivery through. -/
theorem Job.writes_of_escorts {b : Bus} {j : Job} {x : Nat} (h : j.escorts x = true)
    (hc : j.isCall = true) (hj : j.Suits b) : ∃ w, j.writing? = some w := by
  match j, h, hc with
  | .sending (.persisting ..), _, _ => exact hj.2.imp fun _ hw => hw.1

/-- Whether a call on the store has ended in an error. -/
def Turn.isFailed : Turn Access StoreAnswer → Bool
  | .ended (.error _) => true
  | _ => false

/-- Whether the deed leaves the calls on the store that are under way alone. -/
def Deed.isCalm : Deed → Bool
  | .resume j => j.access?.isNone
  | .abandon _ => false
  | _ => true

namespace Bus
variable {b b' : Bus} {x y : Nat} {jobs come others : List Job}

/-- Somebody sees the delivery of `x`, which is persisted, through. -/
def Escorted (b : Bus) (jobs : List Job) (x : Nat) : Prop :=
  (∃ j ∈ jobs, j.escorts x = true) ∨ .tracker x true ∈ b.trackers

/-- `x` has ended and the store has no entry of it. -/
structure Forgotten (b : Bus) (x : Nat) : Prop where
  ended : (b.exchange x).status ≠ .active
  unkept : b.kept? (b.exchange x).id = none

/-- What is persisted and has been sent is escorted, or it is forgotten. -/
def Tended (b : Bus) (jobs : List Job) (x : Nat) : Prop :=
  (b.exchange x).hops ≠ 0 → b.persists x = true → b.Escorted jobs x ∨ b.Forgotten x

theorem Later.persists_eq (l : Later b b') (hx : x < b.exchanges.size) :
    b'.persists x = b.persists x :=
  persists_later l.toEvolves l.store.settings_eq hx

theorem Moved.sent_before {c : Change} (h : Moved b y c b') (hc : ∀ t, c = .dispatch t → y ≠ x)
    (hops : (b'.exchange x).hops ≠ 0) : (b.exchange x).hops ≠ 0 := by
  by_cases hx : x = y
  · subst hx
    obtain ⟨z, hz, e⟩ := h.moves
    rw [e] at hops
    cases hz with
    | dispatch t => exact absurd rfl (hc t rfl)
    | handBack owner sent => exact fun h => by omega
    | _ => exact hops
  · rwa [h.others_eq x hx] at hops

/-- What has just been tracked is escorted, if it is persisted at all. -/
theorem Tended.of_tracked (spares : Spares (b.track x) b') (hx : x < b.exchanges.size) :
    b'.Tended jobs x := by
  intro _ persists
  have ht := ((Later.track b x).trans (.of_spares spares)).persists_eq hx
  refine .inl (.inr ?_)
  rw [spares.trackers_eq, trackers_track, ← ht, persists]
  exact List.mem_append_right _ (List.mem_singleton.2 rfl)

/-- Going on with an entry whose exchange is escorted leaves that of one that is not alone. -/
theorem Tidy.kept?_of_not_escorted {j : Job} {a : Access} {t : Turn Access StoreAnswer}
    (h : b.Tidy jobs) (job : jobs.Perm (j :: others)) (hy : j.subject? = some y)
    (ha : j.access? = some a) (call : b.resumeAccess a = (b', t)) (escorts : j.escorts y = true)
    (distinct : b.Distinct x) (unescorted : ¬ b.Escorted jobs x) :
    b'.kept? (b.exchange x).id = b.kept? (b.exchange x).id := by
  refine h.kept?_resumeAccess job hy ha call distinct fun e => ?_
  subst e
  exact unescorted (.inl ⟨j, job.mem_iff.2 List.mem_cons_self, escorts⟩)

/-- A tracker that has a persisted exchange to follow goes on, or the exchange is forgotten. -/
theorem Follows.escorts (h : Follows b x true b' come) (willing : b.Willing)
    (dispatched : b.Dispatched x) :
    (∃ j ∈ come, j.escorts x = true) ∨ b'.Forgotten x := by
  cases h with
  | watches | asks => exact .inl ⟨_, List.mem_singleton.2 rfl, by simp [Job.escorts]⟩
  | @removes n b₁ r reached store call =>
    have hb := begins willing store (.remove (b.exchange x).id)
    have hc := Calls.of_turn call (.callStore b n _)
    rw [call] at hb
    have he : (b₁.untrack x).exchange x = b.exchange x := hc.exchange_eq x
    refine .inr ⟨he ▸ dispatched.ended reached, ?_⟩
    rw [he]
    cases hb with
    | answered _ rewrites => exact (rewrites.kept_eq _).trans (entered_self _ _ _)
  | leaves reached unkept =>
    refine .inr ⟨dispatched.ended reached, ?_⟩
    exact kept?_of_no_store (unkept.resolve_left nofun) _

theorem Follows.exchange_eq {persisted : Bool} (h : Follows b y persisted b' come) (x : Nat) :
    b'.exchange x = b.exchange x := by
  cases h with
  | watches | leaves => rfl
  | asks _ _ call => exact (Calls.of_turn call (.callStore b _ _)).exchange_eq x
  | removes _ _ call => exact (Calls.of_turn call (.callStore b _ _)).exchange_eq x

/-- Only a tracker of `x` that minds the store touches the entry of `x`. -/
theorem Follows.kept? {persisted : Bool} (h : Follows b y persisted b' come) (willing : b.Willing)
    (hy : y < b.exchanges.size) (distinct : b.Distinct x) (ne : y = x → persisted = false) :
    b'.kept? (b.exchange x).id = b.kept? (b.exchange x).id := by
  cases h with
  | watches | leaves => rfl
  | @asks n _ a _ store call | @removes n _ _ _ store call =>
    have hk := kept?_callStore willing store (c := .remove (b.exchange y).id)
      (distinct.ne hy fun e => nomatch ne e)
    rw [call] at hk
    exact hk

end Bus

namespace Traffic
variable {s s₀ s' : Traffic} {d : Deed} {b : Bus} {jobs : List Job} {x y : Nat} {i : String}

/-- Nobody gives up a call that writes to the store, and no such call fails. -/
structure Steady (s : Traffic) (d : Deed) : Prop where
  kept : ∀ j w, j.writing? = some w → d ≠ .abandon j
  succeeds : ∀ j a w e, d = .resume j → j.access? = some a → a.call.writing? = some w →
    (s.bus.resumeAccess a).2 ≠ .ended (.error e)

theorem Steady.not_failed {j : Job} {a : Access} {e : StoreError} (h : Steady s (.resume j))
    (ha : j.access? = some a) (hw : ∃ w, a.call.writing? = some w ∧ w.id = i) :
    s.bus.resumeAccess a ≠ (b, .ended (.error e)) := by
  obtain ⟨w, hw, -⟩ := hw
  exact fun call => h.succeeds j a w e rfl ha hw (congrArg Prod.snd call)

/-- The write of a reply of `x` puts its record in place only while the delivery of `x` goes on. -/
def InTime (x : Nat) (s : Traffic) (d : Deed) : Prop :=
  ∀ a w, d = .resume (.sending (.responding x a)) → a.call = .renaming w → s.bus.Escorted s.jobs x

open Bus

theorem Affair.mem_trackers (h : s.Affair d b jobs) {l : Launch} (hl : l ∈ s.bus.trackers) :
    l ∈ b.trackers ∨ d = .take l := by
  cases h with
  | aside _ _ spares => exact .inl (spares.trackers_eq ▸ hl)
  | writes moved _ call =>
    exact .inl ((Calls.of_turn call (.persist _ _)).trackers_eq.trans moved.trackers_eq ▸ hl)
  | delivers moved ready spares =>
    rw [spares.trackers_tracked, (Calls.of_ready ready).trackers_eq, moved.trackers_eq]
    exact .inl (List.mem_append_left _ hl)
  | refused moved _ call stirs =>
    have hc := Calls.of_turn call (.persist _ _)
    exact .inl (stirs.trackers_eq.trans (hc.trackers_eq.trans moved.trackers_eq) ▸ hl)
  | writing _ call => exact .inl ((Calls.of_turn call (.resumeAccess _ _)).trackers_eq ▸ hl)
  | removing _ call => exact .inl ((Calls.of_turn call (.resumeAccess _ _)).trackers_eq ▸ hl)
  | removed _ call => exact .inl ((Calls.of_turn call (.resumeAccess _ _)).trackers_eq ▸ hl)
  | written _ call spares =>
    rw [spares.trackers_tracked, (Calls.of_turn call (.resumeAccess _ _)).trackers_eq]
    exact .inl (List.mem_append_left _ hl)
  | unwritten _ call stirs =>
    have hc := Calls.of_turn call (.resumeAccess _ _)
    exact .inl (stirs.trackers_eq.trans hc.trackers_eq ▸ hl)
  | @replies y _ b₁ _ moved =>
    exact .inl ((Calls.persist b₁ y).trackers_eq.trans moved.trackers_eq ▸ hl)
  | @replying _ a | @retrieving a => exact .inl ((Calls.resumeAccess s.bus a).trackers_eq ▸ hl)
  | retrieves id => exact .inl ((Calls.retrieve s.bus id).trackers_eq ▸ hl)
  | tracks launched follows =>
    rcases List.mem_cons.1 ((trackers_launched launched).mem_iff.1 hl) with rfl | hl
    · exact .inr rfl
    · exact .inl (follows.trackers_eq ▸ hl)
  | watching _ follows => exact .inl (follows.trackers_eq ▸ hl)

/-- A step of a run along which the delivery of `x` is seen through. -/
structure Tending (x : Nat) (s : Traffic) (d : Deed) (b : Bus) (jobs : List Job) : Prop where
  affair : s.Affair d b jobs
  later : Later s.bus b
  tidy : s.bus.Tidy s.jobs
  willing : s.bus.Willing
  lt_size : x < s.bus.exchanges.size
  distinct : s.bus.Distinct x
  tended : s.bus.Tended s.jobs x

namespace Tending
variable {gone come others : List Job}

/-- A step goes on with what sees the delivery of `x` through, or the delivery comes to its end, and
otherwise the step leaves the entry of `x` alone. -/
theorem step (gone come : List Job) (c : Tending x s d b (come ++ others))
    (job : s.jobs.Perm (gone ++ others))
    (sent : (b.exchange x).hops ≠ 0 → (s.bus.exchange x).hops ≠ 0)
    (goes : (∃ j ∈ gone, j.escorts x = true) ∨ d = .take (.tracker x true) →
      b.Escorted come x ∨ b.Forgotten x)
    (kept : (s.bus.exchange x).status ≠ .active → ¬ s.bus.Escorted s.jobs x →
      b.kept? (s.bus.exchange x).id = s.bus.kept? (s.bus.exchange x).id) :
    b.Tended (come ++ others) x := by
  intro hops persists
  rw [c.later.persists_eq c.lt_size] at persists
  have more : b.Escorted come x → b.Escorted (come ++ others) x :=
    fun hc => hc.imp_left fun ⟨j, hj, hp⟩ => ⟨j, List.mem_append_left _ hj, hp⟩
  by_cases hp : s.bus.Escorted s.jobs x
  · obtain ⟨j, hj, hjx⟩ | ht := hp
    · rcases List.mem_append.1 (job.mem_iff.1 hj) with hj | hj
      · exact (goes (.inl ⟨j, hj, hjx⟩)).imp_left more
      · exact .inl (.inl ⟨j, List.mem_append_right _ hj, hjx⟩)
    · rcases c.affair.mem_trackers ht with ht | ht
      · exact .inl (.inr ht)
      · exact (goes (.inr ht)).imp_left more
  · obtain ⟨ended, unkept⟩ := (c.tended (sent hops) persists).resolve_left hp
    refine .inr ⟨c.later.ended c.lt_size ended, ?_⟩
    rw [c.later.id_eq c.lt_size, kept ended hp, unkept]

theorem delivers {b₁ : Bus} (gone : List Job) (c : Tending x s d b (come ++ others))
    (job : s.jobs.Perm (gone ++ others)) (spares : Spares (b₁.track y) b)
    (hx : x < b₁.exchanges.size) (sent : (b₁.exchange x).hops ≠ 0 → (s.bus.exchange x).hops ≠ 0)
    (kept : b₁.kept? (s.bus.exchange x).id = s.bus.kept? (s.bus.exchange x).id)
    (apart : ¬ ((∃ j ∈ gone, j.escorts x = true) ∨ d = .take (.tracker x true))) :
    b.Tended (come ++ others) x := by
  refine c.step gone come job (fun hops => sent ?_) (fun hg => absurd hg apart) fun _ _ =>
    (spares.kept?_tracked _).trans kept
  rcases spares.hops_cases x hx with e | ⟨e, -⟩
  · exact fun h => hops (e.trans h)
  · exact fun h => by cases e.symm.trans h

/-- A call of somebody who sees a delivery through goes on. -/
theorem goesOn {j j' : Job} {a a' : Access} (c : Tending x s (.resume j) b (j' :: others))
    (job : s.jobs.Perm (j :: others)) (hy : j.subject? = some y) (ha : j.access? = some a)
    (call : s.bus.resumeAccess a = (b, .waiting a')) (escorts : j.escorts y = true)
    (same : j'.escorts x = j.escorts x) : b.Tended (j' :: others) x := by
  have hc := Calls.of_turn call (.resumeAccess s.bus a)
  refine c.step [j] [j'] job (fun hops => hc.exchange_eq x ▸ hops) (fun hg => ?_)
    fun _ unescorted =>
      c.tidy.kept?_of_not_escorted job hy ha call escorts c.distinct unescorted
  obtain ⟨k, hk, hp⟩ | e := hg
  · rw [List.mem_singleton.1 hk] at hp
    exact .inl (.inl ⟨j', List.mem_singleton.2 rfl, same.trans hp⟩)
  · cases e

/-- A tracker has its turn. The launched work plays no part. -/
theorem follows {persisted : Bool} (gone : List Job) (launched : List Launch)
    (c : Tending x s d b (come ++ others)) (job : s.jobs.Perm (gone ++ others))
    (follows : Follows (s.bus.leaving launched) y persisted b come)
    (dispatched : s.bus.Dispatched y)
    (own : (∃ j ∈ gone, j.escorts x = true) ∨ d = .take (.tracker x true) →
      y = x ∧ persisted = true)
    (escorted : persisted = true → s.bus.Escorted s.jobs y) : b.Tended (come ++ others) x := by
  have l := Later.leaving s.bus launched
  have willing := c.willing.rewrites l.store
  refine c.step gone come job (fun hops => ?_) (fun hg => ?_) fun _ unescorted => ?_
  · rwa [follows.exchange_eq] at hops
  · obtain ⟨rfl, rfl⟩ := own hg
    exact (follows.escorts willing (dispatched.evolves l.toEvolves)).imp_left .inl
  · refine follows.kept? willing dispatched.lt_size c.distinct fun e => ?_
    subst e
    exact Bool.eq_false_iff.2 fun hp => unescorted (escorted hp)

/-- The late write of a reply is in time, or it does not touch what is in place. -/
theorem replying {a : Access} (c : Tending x s (.resume (.sending (.responding y a)))
      (s.bus.resumeAccess a).1 (come ++ others))
    (job : s.jobs.Perm (.sending (.responding y a) :: others))
    (inTime : InTime x s (.resume (.sending (.responding y a)))) :
    (s.bus.resumeAccess a).1.Tended (come ++ others) x := by
  refine c.step [_] come job (fun hops => ?_) (by simp [Job.escorts]) fun ended unescorted => ?_
  · rwa [(Calls.resumeAccess s.bus a).exchange_eq] at hops
  by_cases e : y = x
  · subst e
    refine kept?_resumeAccess_of_not_effective (c.tidy.placed job rfl) ?_ _
    obtain ⟨-, w, hw, -⟩ := c.tidy.suits _ (job.mem_iff.2 List.mem_cons_self)
    -- of the operations of a write only the renaming changes what is kept, and that is in time
    generalize hc : a.call = k at hw
    cases k with
    | removing | reading => cases hw
    | creating | filling | syncing | openingParent | syncingParent | discarding => rfl
    | _ w => exact absurd (inTime a w rfl hc) unescorted
  · exact c.tidy.kept?_resumeAccess job rfl rfl rfl c.distinct e

/-- Once the store has answered a tracker, its exchange is forgotten. -/
theorem removed {a : Access} {b₁ : Bus} {r : StoreAnswer}
    (c : Tending x s (.resume (.tracking (.removing y a))) (b₁.untrack y) others)
    (job : s.jobs.Perm (.tracking (.removing y a) :: others))
    (call : s.bus.resumeAccess a = (b₁, .ended r)) : (b₁.untrack y).Tended others x := by
  have hc := Calls.of_turn call (.resumeAccess s.bus a)
  refine c.step [_] [] job (fun hops => hc.exchange_eq x ▸ hops) (fun hg => ?_)
    fun _ unescorted => ?_
  · obtain ⟨j, hj, hp⟩ | e := hg
    · rw [List.mem_singleton.1 hj] at hp
      obtain rfl := of_decide_eq_true hp
      obtain ⟨-, ended, directory, e⟩ := c.tidy.suits _ (job.mem_iff.2 List.mem_cons_self)
      have he : (b₁.untrack y).exchange y = s.bus.exchange y := hc.exchange_eq y
      have unkept : b₁.kept? _ = none := kept?_of_removed (c.tidy.placed job rfl) e call
      exact .inr ⟨he ▸ ended, he ▸ unkept⟩
    · cases e
  · have kept : b₁.kept? _ = _ := c.tidy.kept?_of_not_escorted job rfl rfl call
      (beq_self_eq_true y) c.distinct unescorted
    exact kept

end Tending

theorem Affair.tended (h : s.Affair d b jobs) (l : Later s.bus b) (tidy : s.bus.Tidy s.jobs)
    (willing : s.bus.Willing) (ordered : s.bus.Orderly s.jobs) (hx : x < s.bus.exchanges.size)
    (distinct : s.bus.Distinct x) (steady : Steady s d) (inTime : InTime x s d)
    (tended : s.bus.Tended s.jobs x) : b.Tended jobs x := by
  have c : Tending x s d b jobs := ⟨h, l, tidy, willing, hx, distinct, tended⟩
  cases h with
  | aside gone come spares _ deed job _ gone_idle =>
    refine c.step gone come job (fun hops => ?_) (fun hg => ?_)
      fun _ _ => spares.rewrites.kept_eq _
    · rcases spares.hops_cases x hx with e | ⟨e, -⟩ <;> omega
    · rcases hg with ⟨j, hj, hp⟩ | e
      · obtain idle | ⟨call, rfl⟩ := gone_idle j hj
        · rw [Job.not_escorts_of_isIdle idle] at hp
          cases hp
        · obtain ⟨w, hw⟩ := Job.writes_of_escorts hp call
            (tidy.suits j (job.mem_iff.2 (List.mem_append_left _ hj)))
          exact absurd rfl (steady.kept j w hw)
      · exact absurd e (deed x true)
  | @writes y t delivery b₁ _ a moved persists call =>
    by_cases e : y = x
    · exact fun _ _ => .inl (.inl ⟨_, List.mem_cons_self, by simp [Job.escorts, e]⟩)
    refine c.step [] [_] (.refl _) (fun hops => ?_) (by simp) fun _ _ =>
      moved.kept?_persist willing call distinct e
    rw [(Calls.of_turn call (.persist b₁ y)).exchange_eq] at hops
    exact moved.sent_before (fun _ _ => e) hops
  | @delivers y t b₁ b₂ _ come moved ready spares =>
    have hc := Calls.of_ready ready
    by_cases e : y = x
    · subst e
      exact .of_tracked spares (hc.lt_size (Nat.lt_of_lt_of_le hx moved.size_le))
    refine c.delivers [] (.refl _) spares (hc.lt_size (Nat.lt_of_lt_of_le hx moved.size_le))
      (fun hops => ?_) (moved.kept?_ready willing ready distinct e) (by simp)
    exact moved.sent_before (fun _ _ => e) (hc.exchange_eq x ▸ hops)
  | refused moved persists call => exact absurd call (moved.not_refused willing persists)
  | writing job call => exact c.goesOn job rfl rfl call (beq_self_eq_true _) rfl
  | @written y t delivery a b₁ _ v come others job call spares =>
    have hc := Calls.of_turn call (.resumeAccess s.bus a)
    by_cases e : y = x
    · subst e
      exact .of_tracked spares (hc.lt_size hx)
    exact c.delivers [_] job spares (hc.lt_size hx) (fun hops => hc.exchange_eq x ▸ hops)
      (tidy.kept?_resumeAccess job rfl rfl call distinct e) (by simp [Job.escorts, e])
  | unwritten job call =>
    have suits := tidy.suits _ (job.mem_iff.2 List.mem_cons_self)
    exact absurd call (steady.not_failed rfl suits.2)
  | @replies y _ b₁ replies moved persists =>
    refine c.step [] _ (.refl _) (fun hops => ?_) (fun hg => ?_) fun ended _ => ?_
    · rw [(Calls.persist b₁ y).exchange_eq] at hops
      exact moved.sent_before (fun _ => nofun) hops
    · obtain ⟨_, hj, _⟩ | rfl := hg
      · cases hj
      · exact replies.elim
    · exact moved.kept?_persist willing rfl distinct fun e => ended (e ▸ moved.active)
  | replying job => exact c.replying job inTime
  | retrieves id =>
    refine c.step [] _ (.refl _) (fun hops => ?_) (by simp) fun _ _ => kept?_retrieve willing id _
    rwa [(Calls.retrieve s.bus id).exchange_eq] at hops
  | @retrieving a others job =>
    refine c.step [_] _ job (fun hops => ?_) (by simp [Job.escorts]) fun _ _ => ?_
    · rwa [(Calls.resumeAccess s.bus a).exchange_eq] at hops
    · obtain ⟨directory, id, e⟩ := tidy.suits _ (job.mem_iff.2 List.mem_cons_self)
      exact kept?_resumeAccess_of_not_effective (tidy.placed job rfl) (by rw [e]; rfl) _
  | @tracks y persisted before after _ come launched follows =>
    refine c.follows [] _ (.refl _) follows
      (ordered y (.inr ⟨_, mem_duties_of_launched launched rfl, rfl⟩)) (fun hg => ?_) fun hp => ?_
    · obtain ⟨_, hj, _⟩ | e := hg
      · cases hj
      · cases e
        exact ⟨rfl, rfl⟩
    · subst hp
      exact .inr ((trackers_launched launched).mem_iff.2 List.mem_cons_self)
  | @watching y persisted seen others _ come job follows =>
    have hj := job.mem_iff.2 List.mem_cons_self
    refine c.follows [_] s.bus.launched job follows
      (ordered y (.inl ⟨_, hj, rfl⟩)) (fun hg => ?_) fun hp => .inl ⟨_, hj, ?_⟩
    · obtain ⟨j, hj, hp⟩ | e := hg
      · rw [List.mem_singleton.1 hj] at hp
        cases persisted with
        | false => cases hp
        | true => exact ⟨of_decide_eq_true hp, rfl⟩
      · cases e
    · subst hp
      exact beq_self_eq_true y
  | removing job call => exact c.goesOn job rfl rfl call (beq_self_eq_true _) rfl
  | removed job call => exact c.removed job call

/-! ### Runs -/

theorem Runs.tended {s₁ : Traffic} (fresh : s₀.Fresh) (willing : s₀.bus.Willing)
    (before : Runs (fun _ _ _ => True) s₀ s₁) (hx : x < s₁.bus.exchanges.size)
    (unsent : (s₁.bus.exchange x).hops = 0) (distinct : s.bus.Distinct x)
    (runs : Runs (fun s d _ => Steady s d ∧ InTime x s d) s₁ s) : s.bus.Tended s.jobs x := by
  suffices h : Runs (fun _ _ _ => True) s₀ s ∧ x < s.bus.exchanges.size ∧
      (s.bus.Distinct x → s.bus.Tended s.jobs x) from h.2.2 distinct
  clear distinct
  induction runs with
  | refl => exact ⟨before, hx, fun _ hops => absurd unsent hops⟩
  | step _ step meets ih =>
    obtain ⟨run, hx, tended⟩ := ih
    obtain ⟨affair, later⟩ := run.affair fresh willing step
    refine ⟨run.step step trivial, Nat.lt_of_lt_of_le hx later.size_le, fun distinct => ?_⟩
    have distinct := distinct.of_later later hx
    exact affair.tended later (run.tidy fresh willing).1 (run.willing fresh willing)
      (run.orderly fresh) hx distinct meets.1 meets.2 (tended distinct)

/-- Once nobody sees the delivery of a persisted exchange through any more, the exchange has ended
and the store has no entry of it. -/
theorem forgotten_of_over {s₁ : Traffic} (fresh : s₀.Fresh) (willing : s₀.bus.Willing)
    (before : Runs (fun _ _ _ => True) s₀ s₁) (hx : x < s₁.bus.exchanges.size)
    (unsent : (s₁.bus.exchange x).hops = 0)
    (runs : Runs (fun s d _ => Steady s d ∧ InTime x s d) s₁ s) (distinct : s.bus.Distinct x)
    (sent : (s.bus.exchange x).hops ≠ 0) (persists : s.bus.persists x = true)
    (landed : ¬ s.bus.Escorted s.jobs x) : s.bus.Forgotten x :=
  (Runs.tended fresh willing before hx unsent distinct runs sent persists).resolve_left landed

/-- `Bus.servedBus` with a store that keeps its request, before anything has happened. -/
def keeping (store : Store) : Traffic where
  bus := { Bus.servedBus with settings := ⟨true, 1000, 1, some 0⟩, stores := [store] }
  jobs := []
  log := []

theorem fresh_keeping (store : Store) : (keeping store).Fresh := ⟨rfl, rfl, rfl, rfl⟩

theorem willing_keeping (store : Store) (h : (keeping store).bus.memory.refused = .empty) :
    (keeping store).bus.Willing :=
  ⟨fun n hn => by cases hn; exact Nat.one_pos, h⟩

theorem steady_of_isCalm (h : d.isCalm = true) : Steady s d := by
  refine ⟨fun j _ _ e => ?_, fun j a _ _ e ha => ?_⟩
  · rw [e] at h
    cases h
  · rw [e, Deed.isCalm, ha] at h
    cases h

theorem inTime_of_isCalm (h : d.isCalm = true) : InTime x s d := by
  intro a _ e
  rw [e] at h
  cases h

/-- The request is sent and answered, the consumer is done with it, and its tracker notices. -/
theorem runs_keeping : ∃ s, Runs (fun s d _ => Steady s d ∧ InTime 0 s d)
    (keeping (.inMemory "exchanges")) s ∧ s.bus.Distinct 0 ∧ (s.bus.exchange 0).hops ≠ 0 ∧
    s.bus.persists 0 = true ∧ ¬ s.bus.Escorted s.jobs 0 := by
  have start : Runs (fun s d _ => Steady s d ∧ InTime 0 s d)
    (keeping (.inMemory "exchanges")) (keeping (.inMemory "exchanges")) := .refl
  have sent := start.step (.ask (r := .send 0) Nat.one_pos)
    ⟨steady_of_isCalm rfl, inTime_of_isCalm rfl⟩
  have tracked := sent.step (@Step.take _ (.tracker 0 true) [] [.processor 2 0 0 true] rfl)
    ⟨steady_of_isCalm rfl, inTime_of_isCalm rfl⟩
  have begun := tracked.step (@Step.take _ (.processor 2 0 0 true) [] [] rfl)
    ⟨steady_of_isCalm rfl, inTime_of_isCalm rfl⟩
  have replied := begun.step (.ask (r := .change 0 (.setOut .empty)) ⟨Nat.one_pos, rfl⟩)
    ⟨steady_of_isCalm rfl, inTime_of_isCalm rfl⟩
  have returned := replied.step (@Step.finish _ 2 0 0 true _ .returned (.refl _))
    ⟨steady_of_isCalm rfl, inTime_of_isCalm rfl⟩
  have answered := returned.step (@Step.resume _
    (.sending (.processing 0 2 1000 ⟨.active, .provider, 1⟩)) _ (.swap _ _ _))
    ⟨steady_of_isCalm rfl, inTime_of_isCalm rfl⟩
  have finished := answered.step (.ask (r := .change 0 .done) ⟨Nat.one_pos, rfl⟩)
    ⟨steady_of_isCalm rfl, inTime_of_isCalm rfl⟩
  have noticed := finished.step (@Step.resume _
    (.tracking (.watching 0 true ⟨.active, .provider, 1⟩)) _ (.refl _))
    ⟨steady_of_isCalm rfl, inTime_of_isCalm rfl⟩
  refine ⟨_, noticed, fun y hy _ => Nat.lt_one_iff.1 hy, nofun, rfl, ?_⟩
  rintro (⟨j, hj, -⟩ | h)
  · cases hj
  · cases h

theorem forgotten_of_over_keeping : ∃ s, (keeping (.inMemory "exchanges")).Fresh ∧
    (keeping (.inMemory "exchanges")).bus.Willing ∧
    0 < (keeping (.inMemory "exchanges")).bus.exchanges.size ∧
    ((keeping (.inMemory "exchanges")).bus.exchange 0).hops = 0 ∧
    Runs (fun s d _ => Steady s d ∧ InTime 0 s d) (keeping (.inMemory "exchanges")) s ∧
    s.bus.Distinct 0 ∧ (s.bus.exchange 0).hops ≠ 0 ∧ s.bus.persists 0 = true ∧
    ¬ s.bus.Escorted s.jobs 0 ∧ s.bus.Forgotten 0 := by
  have fresh := fresh_keeping (.inMemory "exchanges")
  have willing := willing_keeping (.inMemory "exchanges") rfl
  obtain ⟨s, runs, distinct, sent, persists, landed⟩ := runs_keeping
  exact ⟨s, fresh, willing, Nat.one_pos, rfl, runs, distinct, sent, persists, landed,
    forgotten_of_over fresh willing .refl Nat.one_pos rfl runs distinct sent persists landed⟩

theorem steady_of_resume {j : Job} {a : Access} (ha : j.access? = some a)
    (answered : (s.bus.resumeAccess a).2.isFailed = false) : Steady s (.resume j) := by
  refine ⟨fun _ _ _ => nofun, fun k c _ e hd hc _ hr => ?_⟩
  cases hd
  cases ha.symm.trans hc
  rw [hr] at answered
  cases answered

/-- The disk has served one request more. -/
def attend (s : Traffic) : Traffic :=
  s.after .serve ({ s.bus with served := s.bus.served + 1 }, []) s.jobs

/-- The disk serves a call that does not fail, and the call goes on. -/
theorem Runs.goOn {j : Job} {a : Access} {others : List Job}
    (h : Runs (fun s d _ => Steady s d) s₀ s) (asked : s.bus.served < s.bus.asked)
    (job : s.jobs.Perm (j :: others)) (ha : j.access? = some a)
    (answered : (s.attend.bus.resumeAccess a).2.isFailed = false) :
    Runs (fun s d _ => Steady s d) s₀
      (s.attend.after (.resume j) (s.attend.bus.resume j) others) :=
  (h.step (.serve asked) (steady_of_isCalm rfl)).step (.resume job)
    (steady_of_resume ha answered)

/-- A reply that is written down late brings back the entry of an exchange that has ended. -/
theorem not_forgotten_of_late : ¬ ∀ (s₀ s₁ s : Traffic) (x : Nat), s₀.Fresh → s₀.bus.Willing →
    Runs (fun _ _ _ => True) s₀ s₁ → x < s₁.bus.exchanges.size → (s₁.bus.exchange x).hops = 0 →
    Runs (fun s d _ => Steady s d) s₁ s → s.bus.Distinct x → (s.bus.exchange x).hops ≠ 0 →
    s.bus.persists x = true → (s.bus.exchange x).status ≠ .active → s.jobs = [] →
    s.bus.launched = [] → s.bus.kept? (s.bus.exchange x).id = none := by
  intro claimed
  have start : Runs (fun s d _ => Steady s d) (keeping (.inDirectory "/" none))
    (keeping (.inDirectory "/" none)) := .refl
  -- the request is written down and handed to the processor
  have created := start.step (.ask (r := .send 0) Nat.one_pos) (steady_of_isCalm rfl)
  have filled := created.goOn (by decide) (.refl _) rfl rfl
  have synced := filled.goOn (by decide) (.refl _) rfl rfl
  have renamed := synced.goOn (by decide) (.refl _) rfl rfl
  have opened := renamed.goOn (by decide) (.refl _) rfl rfl
  have secured := opened.goOn (by decide) (.refl _) rfl rfl
  have delivered := secured.goOn (by decide) (.refl _) rfl rfl
  have tracked := delivered.step (@Step.take _ (.tracker 0 true) [] [.processor 2 0 0 true] rfl)
    (steady_of_isCalm rfl)
  have begun := tracked.step (@Step.take _ (.processor 2 0 0 true) [] [] rfl)
    (steady_of_isCalm rfl)
  -- it is handed back, and the consumer is done with it before the reply is written down
  have replied := begun.step (.ask (r := .change 0 (.setOut .empty)) ⟨Nat.one_pos, rfl⟩)
    (steady_of_isCalm rfl)
  have responded := replied.step (.ask (r := .respond 0) Nat.one_pos)
    (steady_of_isCalm rfl)
  have returned := responded.step (@Step.finish _ 2 0 0 true _ .returned (.swap _ _ _))
    (steady_of_isCalm rfl)
  have answered := returned.step
    (@Step.resume _ _ _ (((List.Perm.swap _ _ _).cons _).trans (.swap _ _ _)))
    (steady_of_isCalm rfl)
  have finished := answered.step (.ask (r := .change 0 .done) ⟨Nat.one_pos, rfl⟩)
    (steady_of_isCalm rfl)
  have noticed := finished.step (@Step.resume _ _ _ (.swap _ _ _)) (steady_of_isCalm rfl)
  -- the removal comes after the creation of the temporary file, and before the renaming
  have created := noticed.goOn (by decide) (.swap _ _ _) rfl rfl
  have removed := created.goOn (by decide) (.swap _ _ _) rfl rfl
  have filled := removed.goOn (by decide) (.refl _) rfl rfl
  have synced := filled.goOn (by decide) (.refl _) rfl rfl
  have renamed := synced.goOn (by decide) (.refl _) rfl rfl
  have opened := renamed.goOn (by decide) (.refl _) rfl rfl
  have secured := opened.goOn (by decide) (.refl _) rfl rfl
  have fresh := fresh_keeping (.inDirectory "/" none)
  have willing := willing_keeping (.inDirectory "/" none) rfl
  have persists := ((secured.tidy fresh willing).2.persists_eq Nat.one_pos).trans rfl
  have unkept := claimed _ (keeping (.inDirectory "/" none)) _ 0 fresh willing .refl Nat.one_pos rfl
    secured (fun y hy _ => Nat.lt_one_iff.1 hy) (by decide) persists (by decide) rfl rfl
  cases unkept

end Traffic
end ServiceBus
