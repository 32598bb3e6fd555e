import ServiceBus.Proofs.Bus.Forgotten
import ServiceBus.Proofs.Exchange.Snapshot

/-!
# What is in flight is recorded

The entry of a persisted exchange in flight tells of its last hand-off once nobody can go on
(`recorded_of_quiet`). Two calls write entries, the send before it delivers an exchange and the one
that hands a reply back. The bus itself hands a reply back when the processor returns, and then
nothing is written down (`not_recorded_of_settled`). Two invariants carry the proof: whoever writes
an entry writes what tells of its exchange (`Bus.Told`), and what is in flight is recorded or about
to be (`Bus.Chronicled`, step by step in the lemmas of `Chronicling`).
-/

namespace ServiceBus

/-- The job writes an entry of `x`. -/
def Job.records (x : Nat) : Job → Bool
  | .sending (.persisting y _ _ _) | .sending (.responding y _) => y == x
  | _ => false

/-- How often the exchange that the job writes down has changed hands. -/
def Job.stage : Job → Nat
  | .sending (.persisting ..) => 1
  | _ => 2

/-- Whether the record that the call writes is in place. -/
def DirectoryCall.isPlaced : DirectoryCall → Bool
  | .openingParent _ | .syncingParent _ => true
  | _ => false

namespace Job
variable {j : Job} {x : Nat}

theorem not_records_of_isIdle (h : j.isIdle = true) (x : Nat) : j.records x = false := by
  match j, h with
  | .sending (.processing ..), _ | .sending (.queueing ..), _ | .sending (.replying ..), _
  | .watching _, _ | .accepting _, _ | .draining _, _ | .shuttingDown _, _ | .closing _, _
  | .processing .., _ => rfl

theorem subject?_of_records (h : j.records x = true) : j.subject? = some x := by
  match j, h with
  | .sending (.persisting ..), h | .sending (.responding ..), h =>
    exact congrArg some (of_decide_eq_true h)

theorem delivers_of_stage (h : j.records x = true) (hs : j.stage = 1) : j.delivers x = true := by
  match j, h, hs with
  | .sending (.persisting ..), h, _ => exact h

end Job

namespace Bus
variable {b b' : Bus} {x y : Nat} {jobs come gone others : List Job} {v : Json}

/-- The exchange has been delivered and has not ended, as far as has been noticed. -/
def Flying (b : Bus) (x : Nat) : Prop := ∃ k, b.inFlight.get? k = some x

/-- The entry of `x` tells of it. -/
def Recorded (b : Bus) (x : Nat) : Prop :=
  ∃ v, b.kept? (b.exchange x).id = some (b.form (b.exchange x).id v) ∧ v.Tells (b.exchange x)

/-- Whoever writes an entry of `x` writes what tells of it. -/
def Told (b : Bus) (jobs : List Job) (x : Nat) : Prop :=
  ∀ j ∈ jobs, j.records x = true → ∀ w, j.writing? = some w →
    (b.exchange x).Handed ∧ (b.exchange x).hops = j.stage ∧ w.data.Tells (b.exchange x)

/-- What is in flight has been handed over, and if it is persisted it is recorded or about to be; a
write that has put its record in place may rely on it. -/
structure Chronicled (b : Bus) (jobs : List Job) (x : Nat) : Prop where
  flown : ∀ k, b.inFlight.get? k = some x → k = (b.exchange x).id ∧ x < b.exchanges.size ∧
    (b.exchange x).Handed ∧
    (b.persists x = true → b.Recorded x ∨ ∃ a, .sending (.responding x a) ∈ jobs)
  placed : ∀ j ∈ jobs, j.records x = true → ∀ a, j.access? = some a → a.call.isPlaced = true →
    b.Recorded x ∨ (j.delivers x = false ∧ ¬ b.Flying x)

theorem Moved.inFlight_eq {c : Change} (h : Moved b y c b') : b'.inFlight = b.inFlight :=
  congrArg Ledger.inFlight h.ledger_eq

theorem Moved.dispatch_cases {t : Endpoint} (h : Moved b y (.dispatch t) b') (x : Nat) :
    (y ≠ x ∧ b'.exchange x = b.exchange x) ∨
    (y = x ∧ (b.exchange x).owner = .consumer ∧ (b.exchange x).hops = 0 ∧
      (b'.exchange x).owner = .provider ∧ (b'.exchange x).hops = 1) := by
  by_cases e : y = x
  · subst e
    obtain ⟨z, hz, e⟩ := h.moves
    rw [e]
    cases hz with
    | dispatch _ owner hops input => exact .inr ⟨rfl, owner, hops, rfl, rfl⟩
  · exact .inl ⟨e, h.others_eq x (Ne.symm e)⟩

theorem Moved.handBack_cases (h : Moved b y .handBack b') (x : Nat) :
    (y ≠ x ∧ b'.exchange x = b.exchange x) ∨
    (y = x ∧ (b.exchange x).hops = 1 ∧ (b'.exchange x).owner = .consumer ∧
      (b'.exchange x).hops = 2) := by
  by_cases e : y = x
  · subst e
    obtain ⟨z, hz, e⟩ := h.moves
    rw [e]
    cases hz with
    | handBack owner hops reply => exact .inr ⟨rfl, hops, rfl, rfl⟩
  · exact .inl ⟨e, h.others_eq x (Ne.symm e)⟩

theorem Follows.not_records {persisted : Bool} (h : Follows b y persisted b' come) :
    ∀ j ∈ come, ∀ x, j.records x = false := by
  cases h <;> simp [Job.records]

theorem Chronicled.not_flying_of_erase (h : b.Chronicled jobs x)
    (e : b'.inFlight = b.inFlight.erase (b.exchange x).id) : ¬ b'.Flying x := by
  rintro ⟨k, hk⟩
  rw [e, Table.get?_erase] at hk
  split at hk
  · cases hk
  · next ne => exact ne (h.flown k hk).1

theorem flight_of_erase {t : Table String Nat} {i k : String} (h : (t.erase i).get? k = some x) :
    t.get? k = some x := by
  rw [Table.get?_erase] at h
  split at h
  · cases h
  · exact h

theorem Follows.flight {persisted : Bool} (h : Follows b y persisted b' come) (k : String)
    (hk : b'.inFlight.get? k = some x) : b.inFlight.get? k = some x := by
  cases h with
  | watches => exact hk
  | leaves => exact flight_of_erase hk
  | asks _ _ call => exact (Calls.of_turn call (.callStore b _ _)).inFlight_eq ▸ hk
  | removes _ _ call =>
    exact (Calls.of_turn call (.callStore b _ _)).inFlight_eq ▸ flight_of_erase hk

/-- A tracker's turn leaves the entry of `x` alone, or `x` is its exchange and has landed. -/
theorem Follows.entry {persisted : Bool} (h : Follows b y persisted b' come) (willing : b.Willing)
    (hy : y < b.exchanges.size) (distinct : b.Distinct x) :
    b'.kept? (b.exchange x).id = b.kept? (b.exchange x).id ∨
      (y = x ∧ b'.inFlight = b.inFlight.erase (b.exchange x).id) := by
  by_cases e : y = x
  · subst e
    cases h with
    | watches => exact .inl rfl
    | leaves => exact .inr ⟨rfl, rfl⟩
    | asks _ store call =>
      have hb := begins willing store (.remove (b.exchange y).id)
      rw [call] at hb
      cases hb with
      | asks _ same => exact .inl (same.kept_eq _)
    | removes _ _ call =>
      have hc := Calls.of_turn call (.callStore b _ _)
      rw [← hc.inFlight_eq, ← hc.exchange_eq y]
      exact .inr ⟨rfl, rfl⟩
  · exact .inl (h.kept? willing hy distinct fun he => absurd he e)

theorem Recorded.of_kept (hx : x < b.exchanges.size) (l : Later b b')
    (kept : b'.kept? (b.exchange x).id = some (b.form (b.exchange x).id v))
    (tells : v.Tells (b'.exchange x)) : b'.Recorded x := by
  refine ⟨v, ?_, tells⟩
  rw [l.id_eq hx, l.store.form_eq, kept]

theorem Recorded.later (h : b.Recorded x) (hx : x < b.exchanges.size) (l : Later b b')
    (handed : (b.exchange x).Handed) (hops : (b'.exchange x).hops = (b.exchange x).hops)
    (kept : b'.kept? (b.exchange x).id = b.kept? (b.exchange x).id) : b'.Recorded x := by
  obtain ⟨v, hv, tells⟩ := h
  exact .of_kept hx l (kept.trans hv) (tells.leads handed (l.leads x hx) hops)

end Bus

namespace Traffic
variable {s s₀ : Traffic} {d : Deed} {b : Bus} {jobs : List Job} {x : Nat}
open Bus

/-- A reply of `x` is handed back by a call and not by the bus itself, and not before `x` has been
delivered. -/
def Answered (x : Nat) (s : Traffic) (d : Deed) (b : Bus) : Prop :=
  x < s.bus.exchanges.size → (s.bus.exchange x).hops ≠ 2 → (b.exchange x).hops = 2 →
    d.Replies s.bus x ∧ ∀ j ∈ s.jobs, j.delivers x = false

/-- While somebody writes an entry of `x` it does not change hands. -/
theorem Answered.hops_eq {j : Job} {w : Writing} (h : Answered x s d b) (l : Later s.bus b)
    (tidy : s.bus.Tidy s.jobs) (told : s.bus.Told s.jobs x) (hj : j ∈ s.jobs)
    (records : j.records x = true) (hw : j.writing? = some w) :
    x < s.bus.exchanges.size ∧ (b.exchange x).hops = (s.bus.exchange x).hops := by
  obtain ⟨a, ha, -⟩ := Option.bind_eq_some_iff.1 hw
  have hx := ((tidy.suits j hj).subject (Job.subject?_of_records records) ha).1
  refine ⟨hx, ?_⟩
  obtain ⟨handed, stage, -⟩ := told j hj records w hw
  refine (handed.hops_leads (l.leads x hx)).resolve_right fun ⟨one, two⟩ => ?_
  have hd := (h hx (by omega) two).2 j hj
  rw [Job.delivers_of_stage records (stage.symm.trans one)] at hd
  cases hd

/-- What is written goes on telling of `x`, and what is begun to be written tells of it. -/
theorem Told.step (gone come : List Job) {others : List Job} (told : s.bus.Told s.jobs x)
    (l : Later s.bus b) (tidy : s.bus.Tidy s.jobs) (answered : Answered x s d b)
    (job : s.jobs.Perm (gone ++ others))
    (new : ∀ j ∈ come, j.records x = true → ∀ w, j.writing? = some w →
      (∃ k ∈ gone, k.records x = true ∧ k.stage = j.stage ∧ k.writing? = some w) ∨
      ((b.exchange x).Handed ∧ (b.exchange x).hops = j.stage ∧ w.data.Tells (b.exchange x))) :
    b.Told (come ++ others) x := by
  have old (j : Job) (hj : j ∈ s.jobs) (records : j.records x = true) (w : Writing)
      (hw : j.writing? = some w) : (b.exchange x).Handed ∧ (b.exchange x).hops = j.stage ∧
        w.data.Tells (b.exchange x) := by
    obtain ⟨handed, stage, tells⟩ := told j hj records w hw
    obtain ⟨hx, hops⟩ := answered.hops_eq l tidy told hj records hw
    exact ⟨(handed.leads (l.leads x hx)).1, hops.trans stage,
      tells.leads handed (l.leads x hx) hops⟩
  intro j hj records w hw
  rcases List.mem_append.1 hj with hj | hj
  · rcases new j hj records w hw with ⟨k, hk, hr, hs, hkw⟩ | hn
    · rw [← hs]
      exact old k (job.mem_iff.2 (List.mem_append_left _ hk)) hr w hkw
    · exact hn
  · exact old j (job.mem_iff.2 (List.mem_append_right _ hj)) records w hw

/-- Of a call that begins to write an exchange down what is written tells of it. -/
theorem tells_persist {b' : Bus} {a : Access} {w : Writing} (willing : b.Willing)
    (persists : b.persists x = true) (call : b.persist x = (b', .waiting a))
    (hw : a.call.writing? = some w) :
    b'.exchange x = b.exchange x ∧ w.data.Tells (b.exchange x) := by
  have hc := Calls.of_turn call (.persist b x)
  have hb := begins_persist willing persists
  rw [call] at hb
  cases hb with
  | asks =>
    cases hw
    exact ⟨hc.exchange_eq x, Json.tells_snapshot _⟩

theorem not_isPlaced_persist {b' : Bus} {a : Access} (willing : b.Willing)
    (persists : b.persists x = true) (call : b.persist x = (b', .waiting a)) :
    a.call.isPlaced = false := by
  have hb := begins_persist willing persists
  rw [call] at hb
  cases hb
  rfl

theorem recorded_persist {b' : Bus} {r : StoreAnswer} (willing : b.Willing)
    (hx : x < b.exchanges.size) (persists : b.persists x = true)
    (call : b.persist x = (b', .ended r)) : b'.Recorded x := by
  have hc := Calls.of_turn call (.persist b x)
  have l := Later.persist willing x
  have hb := begins_persist willing persists
  rw [call] at hb l
  cases hb with
  | answered memory rewrites =>
    refine .of_kept hx l ((rewrites.kept_eq _).trans (entered_self _ _ _)) ?_
    rw [hc.exchange_eq]
    exact Json.tells_snapshot _

theorem writing?_of_goesOn {b' : Bus} {a a' : Access} {j : Job} {others : List Job} {w : Writing}
    {i : String} (tidy : b.Tidy jobs) (job : jobs.Perm (j :: others)) (ha : j.access? = some a)
    (hj : ∃ w, a.call.writing? = some w ∧ w.id = i) (call : b.resumeAccess a = (b', .waiting a'))
    (hw : a'.call.writing? = some w) : a.call.writing? = some w := by
  obtain ⟨v, hv, -⟩ := hj
  have hv' := (writing?_resumeAccess (tidy.placed job ha) call).1 v hv
  rwa [hv, ← hv']

theorem Affair.told (h : s.Affair d b jobs) (l : Later s.bus b) (tidy : s.bus.Tidy s.jobs)
    (willing : s.bus.Willing) (answered : Answered x s d b) (told : s.bus.Told s.jobs x) :
    b.Told jobs x := by
  have idle {come : List Job} (h : ∀ j ∈ come, j.isIdle = true) (j : Job) (hj : j ∈ come) :
      j.records x ≠ true :=
    fun hr => by cases (Job.not_records_of_isIdle (h j hj) x).symm.trans hr
  cases h with
  | aside gone come spares _ _ job come_idle =>
    exact Told.step gone come told l tidy answered job fun j hj hr =>
      absurd hr (idle come_idle j hj)
  | @writes y t delivery b₁ _ a moved persists call =>
    refine Told.step [] [_] told l tidy answered (.refl _) fun j hj hr w hw => .inr ?_
    obtain rfl := List.mem_singleton.1 hj
    have hy : y = x := of_decide_eq_true hr
    have willing₁ := willing.rewrites (Later.of_moved moved).store
    obtain ⟨e, tells⟩ := tells_persist willing₁ persists call hw
    obtain ⟨ne, -⟩ | ⟨rfl, -, -, owner, hops⟩ := moved.dispatch_cases x
    · exact absurd hy ne
    · rw [e]
      exact ⟨.inl ⟨owner, hops⟩, hops, tells⟩
  | @delivers y t b₁ b₂ _ come moved ready spares come_idle =>
    exact Told.step [] come told l tidy answered (.refl _) fun j hj hr =>
      absurd hr (idle come_idle j hj)
  | refused =>
    exact Told.step [] [] told l tidy answered (.refl _) fun j hj => absurd hj List.not_mem_nil
  | @writing y t delivery a a' _ others job call =>
    refine Told.step [_] [_] told l tidy answered job fun j hj hr w hw =>
      .inl ⟨_, List.mem_singleton.2 rfl, ?_⟩
    obtain rfl := List.mem_singleton.1 hj
    exact ⟨hr, rfl, writing?_of_goesOn tidy job rfl
      (tidy.suits _ (job.mem_iff.2 List.mem_cons_self)).2 call hw⟩
  | @written y t delivery a b₁ _ v come others job call spares come_idle =>
    exact Told.step [_] come told l tidy answered job fun j hj hr => absurd hr (idle come_idle j hj)
  | @unwritten y t delivery a b₁ _ e others job call stirs =>
    exact Told.step [_] [] told l tidy answered job fun j hj => absurd hj List.not_mem_nil
  | @replies y _ b₁ replies moved persists =>
    refine Told.step [] _ told l tidy answered (.refl _) fun j hj hr w hw => .inr ?_
    obtain ⟨a, ha, rfl⟩ := Turn.mem_jobs.1 hj
    have hy : y = x := of_decide_eq_true hr
    have willing₁ := willing.rewrites (Later.of_moved moved).store
    obtain ⟨e, tells⟩ := tells_persist willing₁ persists (Prod.ext rfl ha) hw
    obtain ⟨ne, -⟩ | ⟨rfl, -, owner, hops⟩ := moved.handBack_cases x
    · exact absurd hy ne
    · rw [e]
      exact ⟨.inr ⟨owner, hops⟩, hops, tells⟩
  | @replying y a others job =>
    refine Told.step [_] _ told l tidy answered job fun j hj hr w hw =>
      .inl ⟨_, List.mem_singleton.2 rfl, ?_⟩
    obtain ⟨a', ha, rfl⟩ := Turn.mem_jobs.1 hj
    exact ⟨hr, rfl, writing?_of_goesOn tidy job rfl
      (tidy.suits _ (job.mem_iff.2 List.mem_cons_self)).2 (Prod.ext rfl ha) hw⟩
  | retrieves id =>
    refine Told.step [] _ told l tidy answered (.refl _) fun j hj hr => ?_
    obtain ⟨a, -, rfl⟩ := Turn.mem_jobs.1 hj
    cases hr
  | @retrieving a others job =>
    refine Told.step [_] _ told l tidy answered job fun j hj hr => ?_
    obtain ⟨a, -, rfl⟩ := Turn.mem_jobs.1 hj
    cases hr
  | @tracks y persisted before after _ come launched follows =>
    refine Told.step [] come told l tidy answered (.refl _) fun j hj hr => ?_
    cases (follows.not_records j hj x).symm.trans hr
  | @watching y persisted seen others _ come job follows =>
    refine Told.step [_] come told l tidy answered job fun j hj hr => ?_
    cases (follows.not_records j hj x).symm.trans hr
  | @removing y a a' others _ job call =>
    refine Told.step [_] [_] told l tidy answered job fun j hj hr => ?_
    cases List.mem_singleton.1 hj
    cases hr
  | @removed y a others b₁ r job call =>
    exact Told.step [_] [] told l tidy answered job fun j hj => absurd hj List.not_mem_nil

/-! ### Entries -/

/-- The turn of a write leaves its entry alone or puts it in place. -/
theorem put_resumeAccess {b' : Bus} {a : Access} {j : Job} {w : Writing}
    {t : Turn Access StoreAnswer} (tidy : b.Tidy jobs) (hj : j ∈ jobs) (ha : j.access? = some a)
    (hw : a.call.writing? = some w) (call : b.resumeAccess a = (b', t)) :
    (b'.kept? w.id = b.kept? w.id ∧
      (∀ a', t = .waiting a' → a'.call.isPlaced = true → a.call.isPlaced = true) ∧
      ∀ v, t = .ended (.ok v) → a.call.isPlaced = true) ∨
    (b'.kept? w.id = some (b.form w.id w.data) ∧ ∃ a', t = .waiting a') := by
  have sound := tidy.sound j hj a ha
  have hg := goes sound.placed
  rw [call] at hg
  cases hg with
  | waits =>
    refine .inl ⟨rfl, fun a' e hp => ?_, fun _ => nofun⟩
    cases e
    exact hp
  | @next _ c next same =>
    refine .inl ⟨same.kept_eq _, fun a' e hp => ?_, fun _ => nofun⟩
    cases e
    generalize a.call = c₀ at next
    cases next with
    | syncParent => rfl
    | _ => cases hp
  | @renames _ v hc rewrites =>
    rw [hc] at hw
    cases hw
    refine .inr ⟨?_, _, rfl⟩
    have hf := sound.filled w (by rw [hc]; rfl) (by rw [hc]; rfl)
    have hp : b.place? = some w.directory := by rw [sound.placed, hc]; rfl
    rw [rewrites.kept_eq, entered_self, hf, form_of_place hp]
    rfl
  | removes hc | reads hc =>
    rw [hc] at hw
    cases hw
  | written hc same =>
    exact .inl ⟨same.kept_eq _, fun _ => nofun, fun _ _ => by rw [hc]; rfl⟩
  | failed hc same => exact .inl ⟨same.kept_eq _, fun _ => nofun, fun _ => nofun⟩

/-- What a turn of a call that writes an entry of `x` makes of the entry. -/
theorem Told.resumeAccess {a : Access} {j : Job} {t : Turn Access StoreAnswer}
    (told : s.bus.Told s.jobs x) (tidy : s.bus.Tidy s.jobs) (hj : j ∈ s.jobs)
    (records : j.records x = true) (ha : j.access? = some a)
    (call : s.bus.resumeAccess a = (b, t)) :
    (s.bus.Recorded x → b.Recorded x) ∧
      (∀ a', t = .waiting a' → a'.call.isPlaced = true → a.call.isPlaced = true ∨ b.Recorded x) ∧
      ∀ v, t = .ended (.ok v) → a.call.isPlaced = true := by
  obtain ⟨w, hw⟩ : ∃ w, a.call.writing? = some w := by
    match j, records, ha, tidy.suits j hj with
    | .sending (.persisting ..), _, rfl, ⟨_, w, hw, _⟩ => exact ⟨w, hw⟩
    | .sending (.responding ..), _, rfl, ⟨_, w, hw, _⟩ => exact ⟨w, hw⟩
  obtain ⟨hx, hid⟩ := (tidy.suits j hj).subject (Job.subject?_of_records records) ha
  rw [DirectoryCall.id_of_writing hw] at hid
  obtain ⟨handed, -, tells⟩ := told j hj records w (Option.bind_eq_some_iff.2 ⟨a, ha, hw⟩)
  have l := Later.resumeAccess (tidy.sound j hj a ha).placed
  have hc := Calls.of_turn call (.resumeAccess s.bus a)
  have hp := put_resumeAccess tidy hj ha hw call
  rw [call] at l
  rw [hid] at hp
  obtain ⟨kept, goes, ends⟩ | ⟨kept, a', rfl⟩ := hp
  · exact ⟨fun h => h.later hx l handed (by rw [hc.exchange_eq]) kept,
      fun a' e hp => .inl (goes a' e hp), ends⟩
  · have recorded : b.Recorded x := .of_kept hx l kept (by rwa [hc.exchange_eq])
    exact ⟨fun _ => recorded, fun _ _ _ => .inr recorded, fun _ => nofun⟩

/-! ### Steps -/

theorem writing?_of_isPlaced {j : Job} {a : Access} (ha : j.access? = some a)
    (hp : a.call.isPlaced = true) : ∃ w, j.writing? = some w := by
  simp only [Job.writing?, ha, Option.bind_some]
  generalize a.call = c at hp
  cases c <;> first | exact ⟨_, rfl⟩ | cases hp

/-- A step of a run along which the entry of `x` is kept up to date. -/
structure Chronicling (x : Nat) (s : Traffic) (d : Deed) (b : Bus) : Prop where
  later : Later s.bus b
  tidy : s.bus.Tidy s.jobs
  willing : s.bus.Willing
  distinct : x < s.bus.exchanges.size → s.bus.Distinct x
  steady : Steady s d
  answered : Answered x s d b
  told : s.bus.Told s.jobs x
  chronicled : s.bus.Chronicled s.jobs x

theorem inFlight_of_tracked {b₁ : Bus} {k : String} {y : Nat} (spares : Spares (b₁.track y) b)
    (hk : b.inFlight.get? k = some x) :
    (k = (b₁.exchange y).id ∧ y = x) ∨ b₁.inFlight.get? k = some x := by
  rw [spares.inFlight_eq] at hk
  have hk : (b₁.inFlight.insert (b₁.exchange y).id y).get? k = some x := hk
  rw [Table.get?_insert] at hk
  split at hk
  · next e => exact .inl ⟨e, Option.some.inj hk⟩
  · exact .inr hk

/-- `x` has been tracked, after it was written down if need be. -/
theorem Chronicled.of_tracked {b₁ : Bus} {come others : List Job}
    (spares : Spares (b₁.track x) b) (come_idle : ∀ j ∈ come, j.isIdle = true)
    (hx : x < b₁.exchanges.size) (handed : (b₁.exchange x).Handed)
    (hops : (b.exchange x).hops = (b₁.exchange x).hops)
    (recorded : b₁.persists x = true → b₁.Recorded x)
    (flown : ∀ k, b₁.inFlight.get? k = some x → k = (b₁.exchange x).id)
    (placed : ∀ j ∈ others, j.records x = true → ∀ a, j.access? = some a →
      a.call.isPlaced = true → b₁.Recorded x) : b.Chronicled (come ++ others) x := by
  have l : Later b₁ b := (Later.track b₁ x).trans (.of_spares spares)
  have later (hr : b₁.Recorded x) : b.Recorded x :=
    hr.later hx l handed hops (spares.kept?_tracked _)
  refine ⟨fun k hk => ?_, fun j hj hr a ha hp => .inl ?_⟩
  · refine ⟨?_, Nat.lt_of_lt_of_le hx l.size_le, (handed.leads (l.leads x hx)).1,
      fun persists => .inl (later (recorded (l.persists_eq hx ▸ persists)))⟩
    rw [l.id_eq hx]
    rcases inFlight_of_tracked spares hk with ⟨e, -⟩ | hk
    · exact e
    · exact flown k hk
  · rcases List.mem_append.1 hj with hj | hj
    · cases (Job.not_records_of_isIdle (come_idle j hj) x).symm.trans hr
    · exact later (placed j hj hr a ha hp)

namespace Chronicling
variable {y : Nat} {t : Endpoint} {b₁ b₂ : Bus} {gone come others : List Job}

/-- A step in which `x` is not sent: its entry stays or is written anew, or `x` is out of flight. -/
theorem step (gone come : List Job) (c : Chronicling x s d b) (job : s.jobs.Perm (gone ++ others))
    (flight : ∀ k, b.inFlight.get? k = some x → s.bus.inFlight.get? k = some x)
    (unanswered : x < s.bus.exchanges.size → (s.bus.exchange x).hops = 1 →
      (b.exchange x).hops = 2 → b.persists x = false)
    (recorded : x < s.bus.exchanges.size → (s.bus.exchange x).Handed →
      (b.exchange x).hops = (s.bus.exchange x).hops → s.bus.Recorded x →
      b.Recorded x ∨ (¬ b.Flying x ∧ ∀ j ∈ s.jobs, j.delivers x = false))
    (goes : ∀ a, .sending (.responding x a) ∈ gone →
      (∃ a, .sending (.responding x a) ∈ come) ∨ b.Recorded x ∨ ¬ b.Flying x)
    (new : ∀ j ∈ come, j.records x = true → ∀ a, j.access? = some a → a.call.isPlaced = true →
      b.Recorded x ∨ (j.delivers x = false ∧ ¬ b.Flying x)) :
    b.Chronicled (come ++ others) x := by
  have l := c.later
  refine ⟨fun k hk => ?_, fun j hj records a ha hp => ?_⟩
  · obtain ⟨id_eq, hx, handed, kept⟩ := c.chronicled.flown k (flight k hk)
    refine ⟨id_eq.trans (l.id_eq hx).symm, Nat.lt_of_lt_of_le hx l.size_le,
      (handed.leads (l.leads x hx)).1, fun persists => ?_⟩
    have hops : (b.exchange x).hops = (s.bus.exchange x).hops := by
      refine (handed.hops_leads (l.leads x hx)).resolve_right fun ⟨one, two⟩ => ?_
      cases (unanswered hx one two).symm.trans persists
    rcases kept (l.persists_eq hx ▸ persists) with hr | ⟨a, ha⟩
    · exact .inl ((recorded hx handed hops hr).resolve_right fun hn => hn.1 ⟨k, hk⟩)
    · rcases List.mem_append.1 (job.mem_iff.1 ha) with ha | ha
      · obtain ⟨a', ha'⟩ | hr | hn := goes a ha
        · exact .inr ⟨a', List.mem_append_left _ ha'⟩
        · exact .inl hr
        · exact absurd ⟨k, hk⟩ hn
      · exact .inr ⟨a, List.mem_append_right _ ha⟩
  · rcases List.mem_append.1 hj with hj | hj
    · exact new j hj records a ha hp
    · have hj := job.mem_iff.2 (List.mem_append_right gone hj)
      obtain ⟨w, hw⟩ := writing?_of_isPlaced ha hp
      obtain ⟨hx, hops⟩ := c.answered.hops_eq l c.tidy c.told hj records hw
      rcases c.chronicled.placed j hj records a ha hp with hr | ⟨hd, hn⟩
      · exact (recorded hx (c.told j hj records w hw).1 hops hr).imp_right
          fun ⟨hf, hd⟩ => ⟨hd j hj, hf⟩
      · exact .inr ⟨hd, fun ⟨k, hk⟩ => hn ⟨k, flight k hk⟩⟩

/-- A step without a write of `x`. -/
theorem idle (gone come : List Job) (c : Chronicling x s d b) (job : s.jobs.Perm (gone ++ others))
    (flight : ∀ k, b.inFlight.get? k = some x → s.bus.inFlight.get? k = some x)
    (unanswered : x < s.bus.exchanges.size → (s.bus.exchange x).hops = 1 →
      (b.exchange x).hops = 2 → b.persists x = false)
    (kept : x < s.bus.exchanges.size →
      b.kept? (s.bus.exchange x).id = s.bus.kept? (s.bus.exchange x).id)
    (silent : ∀ a, .sending (.responding x a) ∉ gone) (new : ∀ j ∈ come, j.records x = false) :
    b.Chronicled (come ++ others) x :=
  c.step gone come job flight unanswered
    (fun hx handed hops hr => .inl (hr.later hx c.later handed hops (kept hx)))
    (fun a ha => absurd ha (silent a)) fun j hj hr => absurd ((new j hj).symm.trans hr) nofun

theorem writes {delivery : Delivery} {a : Access} (c : Chronicling x s (.ask (.send y)) b)
    (moved : Moved s.bus y (.dispatch t) b₁) (persists : b₁.persists y = true)
    (call : b₁.persist y = (b, .waiting a)) :
    b.Chronicled (.sending (.persisting y t delivery a) :: s.jobs) x := by
  have hc := Calls.of_turn call (.persist b₁ y)
  have hf : b.inFlight = s.bus.inFlight := hc.inFlight_eq.trans moved.inFlight_eq
  refine c.step [] [_] (.refl _) (fun k hk => hf ▸ hk) (fun _ one two => ?_)
    (fun hx handed hops hr => .inl ?_) (by simp) fun j hj _ k ha hp => ?_
  · rw [hc.exchange_eq] at two
    obtain ⟨-, e⟩ | ⟨-, -, unsent, -⟩ := moved.dispatch_cases x
    · rw [e] at two
      omega
    · omega
  · obtain ⟨ne, -⟩ | ⟨-, -, unsent, -⟩ := moved.dispatch_cases x
    · exact hr.later hx c.later handed hops
        (moved.kept?_persist c.willing call (c.distinct hx) ne)
    · have sent := handed.hops_cases
      omega
  · obtain rfl := List.mem_singleton.1 hj
    cases ha
    have willing := c.willing.rewrites (Later.of_moved moved).store
    cases (not_isPlaced_persist willing persists call).symm.trans hp

theorem delivers (c : Chronicling x s (.ask (.send y)) b) (moved : Moved s.bus y (.dispatch t) b₁)
    (ready : (b₁.persists y = false ∧ b₂ = b₁) ∨
      ∃ v, b₁.persists y = true ∧ b₁.persist y = (b₂, .ended (.ok v)))
    (spares : Spares (b₂.track y) b) (come_idle : ∀ j ∈ come, j.isIdle = true) :
    b.Chronicled (come ++ s.jobs) x := by
  have hc := Calls.of_ready ready
  have hf : b₂.inFlight = s.bus.inFlight := hc.inFlight_eq.trans moved.inFlight_eq
  obtain ⟨ne, -⟩ | ⟨rfl, owner, unsent, owner', sent⟩ := moved.dispatch_cases x
  · refine c.idle [] come (.refl _)
      (fun k hk => hf ▸ (inFlight_of_tracked spares hk).resolve_left fun h => ne h.2)
      (fun hx one two => absurd (c.answered hx (by omega) two).1.1 ne) (fun hx => ?_) (by simp)
      fun j hj => Job.not_records_of_isIdle (come_idle j hj) x
    exact (spares.kept?_tracked _).trans
      (moved.kept?_ready c.willing ready (c.distinct hx) ne)
  · -- so far the exchange has been neither handed over nor written down
    have unhanded : ¬ (s.bus.exchange y).Handed := fun handed => by
      have hops := handed.hops_cases
      omega
    have hx := Nat.lt_of_lt_of_le moved.lt_size moved.size_le
    refine Chronicled.of_tracked spares come_idle (hc.lt_size hx)
      (hc.exchange_eq y ▸ .inl ⟨owner', sent⟩) ?_ (fun persists => ?_)
      (fun k hk => absurd (c.chronicled.flown k (hf ▸ hk)).2.2.1 unhanded)
      fun j hj hr a ha hp => ?_
    · refine (spares.hops_cases y (hc.lt_size hx)).resolve_right fun ⟨_, two⟩ => ?_
      cases owner.symm.trans (c.answered moved.lt_size (by omega) two).1.2
    · obtain ⟨unkept, rfl⟩ | ⟨v, persists, call⟩ := ready
      · cases unkept.symm.trans persists
      · have willing := c.willing.rewrites (Later.of_moved moved).store
        exact recorded_persist willing hx persists call
    · obtain ⟨w, hw⟩ := writing?_of_isPlaced ha hp
      exact absurd (c.told j hj hr w hw).1 unhanded

theorem writing {delivery : Delivery} {a a' : Access}
    (c : Chronicling x s (.resume (.sending (.persisting y t delivery a))) b)
    (job : s.jobs.Perm (.sending (.persisting y t delivery a) :: others))
    (call : s.bus.resumeAccess a = (b, .waiting a')) :
    b.Chronicled (.sending (.persisting y t delivery a') :: others) x := by
  have hc := Calls.of_turn call (.resumeAccess s.bus a)
  have hj := job.mem_iff.2 List.mem_cons_self
  refine c.step [_] [_] job (fun k hk => hc.inFlight_eq ▸ hk) (fun _ one two => ?_)
    (fun hx handed hops hr => .inl ?_) (by simp) fun k hk records p ha hp => .inl ?_
  · rw [hc.exchange_eq] at two
    omega
  · by_cases e : y = x
    · exact (Told.resumeAccess c.told c.tidy hj (by simp [Job.records, e]) rfl call).1 hr
    · exact hr.later hx c.later handed hops
        (c.tidy.kept?_resumeAccess job rfl rfl call (c.distinct hx) e)
  · obtain rfl := List.mem_singleton.1 hk
    cases ha
    obtain ⟨stays, placed, -⟩ := Told.resumeAccess c.told c.tidy hj records rfl call
    rcases placed _ rfl hp with hp | hr
    · exact stays ((c.chronicled.placed _ hj records _ rfl hp).resolve_right
        fun hn => by cases records.symm.trans hn.1)
    · exact hr

theorem written {delivery : Delivery} {a : Access} {v : Option Json}
    (c : Chronicling x s (.resume (.sending (.persisting y t delivery a))) b)
    (job : s.jobs.Perm (.sending (.persisting y t delivery a) :: others))
    (call : s.bus.resumeAccess a = (b₁, .ended (.ok v))) (spares : Spares (b₁.track y) b)
    (come_idle : ∀ j ∈ come, j.isIdle = true) : b.Chronicled (come ++ others) x := by
  have hc := Calls.of_turn call (.resumeAccess s.bus a)
  have hj := job.mem_iff.2 List.mem_cons_self
  by_cases e : y = x
  · subst e
    have records : Job.records y (.sending (.persisting y t delivery a)) = true :=
      beq_self_eq_true y
    obtain ⟨hx, w, hw, -⟩ := c.tidy.suits _ hj
    obtain ⟨handed, sent, -⟩ := c.told _ hj records w hw
    obtain ⟨stays, -, ends⟩ := Told.resumeAccess c.told c.tidy hj records rfl call
    -- a write that ends well has put its record in place before
    have placed := c.chronicled.placed _ hj records a rfl (ends v rfl)
    have recorded := stays (placed.resolve_right fun hn => by cases records.symm.trans hn.1)
    have e := hc.exchange_eq y
    refine Chronicled.of_tracked spares come_idle (hc.lt_size hx) (e ▸ handed) ?_
      (fun _ => recorded) (fun k hk => ?_) fun _ _ _ _ _ _ => recorded
    · exact (spares.hops_cases y (hc.lt_size hx)).resolve_right fun ⟨one, two⟩ =>
        (c.answered hx (fun h => by cases sent.symm.trans h) two).1
    · rw [e]
      exact (c.chronicled.flown k (hc.inFlight_eq ▸ hk)).1
  · refine c.idle [_] come job (fun k hk => ?_)
      (fun hx one two => (c.answered hx (by omega) two).1.elim) (fun hx => ?_) (by simp)
      fun j hj => Job.not_records_of_isIdle (come_idle j hj) x
    · exact hc.inFlight_eq ▸ (inFlight_of_tracked spares hk).resolve_left fun h => e h.2
    · exact (spares.kept?_tracked _).trans
        (c.tidy.kept?_resumeAccess job rfl rfl call (c.distinct hx) e)

theorem replies (c : Chronicling x s d (b₁.persist y).1) (moved : Moved s.bus y .handBack b₁)
    (persists : b₁.persists y = true) :
    (b₁.persist y).1.Chronicled
      ((b₁.persist y).2.jobs (fun a => .sending (.responding y a)) ++ s.jobs) x := by
  have willing := c.willing.rewrites (Later.of_moved moved).store
  have hc := Calls.persist b₁ y
  have hf : (b₁.persist y).1.inFlight = s.bus.inFlight := hc.inFlight_eq.trans moved.inFlight_eq
  obtain ⟨ne, e⟩ | ⟨rfl, sent, owner, answer⟩ := moved.handBack_cases x
  · refine c.idle [] _ (.refl _) (fun k hk => hf ▸ hk) (fun _ one two => ?_)
      (fun hx => moved.kept?_persist c.willing rfl (c.distinct hx) ne) (by simp) fun j hj => ?_
    · rw [hc.exchange_eq, e] at two
      omega
    · obtain ⟨a, -, rfl⟩ := Turn.mem_jobs.1 hj
      exact beq_false_of_ne ne
  · have he := hc.exchange_eq y
    refine ⟨fun k hk => ?_, fun j hj hr a ha hp => ?_⟩
    · refine ⟨?_, Nat.lt_of_lt_of_le moved.lt_size c.later.size_le, he ▸ .inr ⟨owner, answer⟩,
        fun _ => ?_⟩
      · rw [c.later.id_eq moved.lt_size]
        exact (c.chronicled.flown k (hf ▸ hk)).1
      · have hx := Nat.lt_of_lt_of_le moved.lt_size moved.size_le
        generalize hp : b₁.persist y = r
        obtain ⟨b', r | a⟩ := r
        · exact .inl (recorded_persist willing hx persists hp)
        · exact .inr ⟨a, List.mem_cons_self⟩
    · rcases List.mem_append.1 hj with hj | hj
      · obtain ⟨k, hk, rfl⟩ := Turn.mem_jobs.1 hj
        cases ha
        cases (not_isPlaced_persist willing persists (Prod.ext rfl hk)).symm.trans hp
      · -- whoever writes `y` down does so before it is delivered
        obtain ⟨w, hw⟩ := writing?_of_isPlaced ha hp
        have stage := (c.told j hj hr w hw).2.1
        have hd := Job.delivers_of_stage hr (stage.symm.trans sent)
        cases hd.symm.trans ((c.answered moved.lt_size (by omega) (he ▸ answer)).2 j hj)

theorem replying {a : Access}
    (c : Chronicling x s (.resume (.sending (.responding y a))) (s.bus.resumeAccess a).1)
    (job : s.jobs.Perm (.sending (.responding y a) :: others)) :
    (s.bus.resumeAccess a).1.Chronicled
      ((s.bus.resumeAccess a).2.jobs (fun a => .sending (.responding y a)) ++ others) x := by
  have hc := Calls.resumeAccess s.bus a
  have hj := job.mem_iff.2 List.mem_cons_self
  have still (h : ¬ s.bus.Flying x) : ¬ (s.bus.resumeAccess a).1.Flying x :=
    fun ⟨k, hk⟩ => h ⟨k, hc.inFlight_eq ▸ hk⟩
  refine c.step [_] _ job (fun k hk => hc.inFlight_eq ▸ hk) (fun _ one two => ?_)
    (fun hx handed hops hr => .inl ?_) (fun p hp => ?_) fun k hk records p ha hp => ?_
  · rw [hc.exchange_eq] at two
    omega
  · by_cases e : y = x
    · exact (Told.resumeAccess c.told c.tidy hj (by simp [Job.records, e]) rfl rfl).1 hr
    · exact hr.later hx c.later handed hops
        (c.tidy.kept?_resumeAccess job rfl rfl rfl (c.distinct hx) e)
  · obtain ⟨rfl, rfl⟩ : x = y ∧ p = a := by simpa using hp
    generalize hr : s.bus.resumeAccess p = r at still ⊢
    obtain ⟨b, (e | v) | a'⟩ := r
    · exact absurd hr (c.steady.not_failed rfl (c.tidy.suits _ hj).2)
    · obtain ⟨stays, -, ends⟩ := Told.resumeAccess c.told c.tidy hj (beq_self_eq_true x) rfl hr
      have placed := c.chronicled.placed _ hj (beq_self_eq_true x) p rfl (ends v rfl)
      exact .inr (placed.imp stays fun hn => still hn.2)
    · exact .inl ⟨a', List.mem_cons_self⟩
  · obtain ⟨a', ht, rfl⟩ := Turn.mem_jobs.1 hk
    obtain rfl : a' = p := Option.some.inj ha
    have call : s.bus.resumeAccess a = ((s.bus.resumeAccess a).1, .waiting a') := Prod.ext rfl ht
    obtain ⟨stays, placed, -⟩ := Told.resumeAccess c.told c.tidy hj records rfl call
    rcases placed _ rfl hp with hp | hr
    · exact (c.chronicled.placed _ hj records _ rfl hp).imp stays fun hn => ⟨rfl, still hn.2⟩
    · exact .inl hr

/-- A tracker has its turn, and nobody delivers its exchange any more. -/
theorem follows {persisted : Bool} (gone : List Job) (launched : List Launch)
    (c : Chronicling x s d b)
    (job : s.jobs.Perm (gone ++ others))
    (follows : Follows (s.bus.leaving launched) y persisted b come)
    (hy : y < s.bus.exchanges.size) (silent : ∀ a, .sending (.responding x a) ∉ gone)
    (alone : y = x → ∀ j ∈ s.jobs, j.delivers x = false) : b.Chronicled (come ++ others) x := by
  refine c.step gone come job (fun k hk => follows.flight k hk) (fun _ one two => ?_)
    (fun hx handed hops hr => ?_) (fun a ha => absurd ha (silent a)) fun j hj hr => ?_
  · rw [follows.exchange_eq] at two
    exact absurd (one.symm.trans two) (by decide)
  · have willing := c.willing.rewrites (Later.leaving s.bus launched).store
    rcases follows.entry willing hy (c.distinct hx) with hk | ⟨e, hf⟩
    · exact .inl (hr.later hx c.later handed hops hk)
    · exact .inr ⟨c.chronicled.not_flying_of_erase hf, alone e⟩
  · cases (follows.not_records j hj x).symm.trans hr

theorem removing {a a' : Access} (c : Chronicling x s (.resume (.tracking (.removing y a))) b)
    (job : s.jobs.Perm (.tracking (.removing y a) :: others))
    (call : s.bus.resumeAccess a = (b, .waiting a')) :
    b.Chronicled (.tracking (.removing y a') :: others) x := by
  have hc := Calls.of_turn call (.resumeAccess s.bus a)
  obtain ⟨-, -, directory, e⟩ := c.tidy.suits _ (job.mem_iff.2 List.mem_cons_self)
  refine c.idle [_] [_] job (fun k hk => hc.inFlight_eq ▸ hk) (fun _ one two => ?_) (fun _ => ?_)
    (by simp) (by simp [Job.records])
  · rw [hc.exchange_eq] at two
    omega
  · -- a removal that has had the disk's attention is over
    obtain ⟨rfl, -⟩ | ⟨-, -, -, hr⟩ := waiting_resumeAccess call
    · rfl
    · rw [e] at hr
      generalize (s.bus.files.perform (DirectoryCall.removing directory _).operation).2 = r at hr
      cases r with
      | ok _ => cases hr
      | error e => cases e <;> cases hr

theorem removed {a : Access} {r : StoreAnswer}
    (c : Chronicling x s (.resume (.tracking (.removing y a))) (b₁.untrack y))
    (job : s.jobs.Perm (.tracking (.removing y a) :: others))
    (call : s.bus.resumeAccess a = (b₁, .ended r))
    (alone : y = x → ∀ j ∈ s.jobs, j.delivers x = false) :
    (b₁.untrack y).Chronicled others x := by
  have hc := Calls.of_turn call (.resumeAccess s.bus a)
  have he : (b₁.untrack y).exchange x = s.bus.exchange x := hc.exchange_eq x
  have hf : (b₁.untrack y).inFlight = s.bus.inFlight.erase (s.bus.exchange y).id := by
    rw [← hc.inFlight_eq, ← hc.exchange_eq y]
    rfl
  refine c.step [_] [] job (fun k hk => hc.inFlight_eq ▸ flight_of_erase hk) (fun _ one two => ?_)
    (fun hx handed hops hr => ?_) (by simp) (by simp)
  · rw [he] at two
    omega
  · by_cases e : y = x
    · exact .inr ⟨c.chronicled.not_flying_of_erase (e ▸ hf), alone e⟩
    · have kept : b₁.kept? _ = _ := c.tidy.kept?_resumeAccess job rfl rfl call (c.distinct hx) e
      exact .inl (hr.later hx c.later handed hops kept)

end Chronicling

theorem Affair.chronicled (h : s.Affair d b jobs) (l : Later s.bus b) (tidy : s.bus.Tidy s.jobs)
    (willing : s.bus.Willing) (ordered : s.bus.Orderly s.jobs)
    (distinct : x < s.bus.exchanges.size → s.bus.Distinct x)
    (alone : (∃ p, .tracker x p ∈ s.bus.trackers) ∨
      (∃ t, .tracking t ∈ s.jobs ∧ t.exchange = x) → ∀ j ∈ s.jobs, j.delivers x = false)
    (steady : Steady s d) (answered : Answered x s d b) (told : s.bus.Told s.jobs x)
    (chronicled : s.bus.Chronicled s.jobs x) : b.Chronicled jobs x := by
  have c : Chronicling x s d b :=
    ⟨l, tidy, willing, distinct, steady, answered, told, chronicled⟩
  cases h with
  | aside gone come spares replies _ job come_idle gone_idle =>
    refine c.idle gone come job (fun k hk => spares.inFlight_eq ▸ hk) (fun hx one two => ?_)
      (fun _ => spares.rewrites.kept_eq _) (fun a ha => ?_)
      fun j hj => Job.not_records_of_isIdle (come_idle j hj) x
    · obtain ⟨hd, -⟩ := answered hx (by omega) two
      exact (replies x hx hd).resolve_left (by omega)
    · obtain idle | ⟨-, rfl⟩ := gone_idle _ ha
      · cases idle
      · obtain ⟨-, w, hw, -⟩ := tidy.suits _ (job.mem_iff.2 (List.mem_append_left _ ha))
        exact absurd rfl (steady.kept _ w hw)
  | writes moved persists call => exact c.writes moved persists call
  | delivers moved ready spares come_idle => exact c.delivers moved ready spares come_idle
  | refused moved persists call => exact absurd call (moved.not_refused willing persists)
  | writing job call => exact c.writing job call
  | written job call spares come_idle => exact c.written job call spares come_idle
  | unwritten job call =>
    have suits := tidy.suits _ (job.mem_iff.2 List.mem_cons_self)
    exact absurd call (steady.not_failed rfl suits.2)
  | replies _ moved persists => exact c.replies moved persists
  | replying job => exact c.replying job
  | retrieves id =>
    have hc := Calls.retrieve s.bus id
    refine c.idle [] _ (.refl _) (fun k hk => hc.inFlight_eq ▸ hk) (fun _ one two => ?_)
      (fun _ => kept?_retrieve willing id _) (by simp) fun j hj => ?_
    · rw [hc.exchange_eq] at two
      omega
    · obtain ⟨a, -, rfl⟩ := Turn.mem_jobs.1 hj
      rfl
  | @retrieving a others job =>
    have hc := Calls.resumeAccess s.bus a
    obtain ⟨directory, id, e⟩ := tidy.suits _ (job.mem_iff.2 List.mem_cons_self)
    refine c.idle [_] _ job (fun k hk => hc.inFlight_eq ▸ hk) (fun _ one two => ?_)
      (fun _ => kept?_resumeAccess_of_not_effective (tidy.placed job rfl) (by rw [e]; rfl) _)
      (by simp) fun j hj => ?_
    · rw [hc.exchange_eq] at two
      omega
    · obtain ⟨a, -, rfl⟩ := Turn.mem_jobs.1 hj
      rfl
  | @tracks y persisted before after _ come launched follows =>
    have hy := (ordered y (.inr ⟨_, mem_duties_of_launched launched rfl, rfl⟩)).lt_size
    refine c.follows [] _ (.refl _) follows hy (by simp) fun e => ?_
    subst e
    exact alone (.inl ⟨_, (trackers_launched launched).mem_iff.2 List.mem_cons_self⟩)
  | @watching y persisted seen others _ come job follows =>
    have hj := job.mem_iff.2 List.mem_cons_self
    exact c.follows [_] s.bus.launched job follows
      (ordered y (.inl ⟨_, hj, rfl⟩)).lt_size (by simp) fun e => alone (.inr ⟨_, hj, e⟩)
  | removing job call => exact c.removing job call
  | removed job call =>
    exact c.removed job call fun e => alone (.inr ⟨_, job.mem_iff.2 List.mem_cons_self, e⟩)

/-! ### Runs -/

theorem Runs.chronicled (fresh : s₀.Fresh) (willing : s₀.bus.Willing)
    (runs : Runs (fun s d s' => Steady s d ∧ Answered x s d s'.bus) s₀ s)
    (distinct : x < s.bus.exchanges.size → s.bus.Distinct x) :
    s.bus.Told s.jobs x ∧ s.bus.Chronicled s.jobs x := by
  induction runs with
  | refl =>
    refine ⟨by simp [Told, fresh.no_jobs], ?_, by simp [fresh.no_jobs]⟩
    simp [fresh.no_flights]
  | @step s s' d run step meets ih =>
    obtain ⟨steady, answered⟩ := meets
    obtain ⟨affair, later⟩ := run.affair fresh willing step
    have distinct (hx : x < s.bus.exchanges.size) : s.bus.Distinct x :=
      (distinct (Nat.lt_of_lt_of_le hx later.size_le)).of_later later hx
    obtain ⟨told, chronicled⟩ := ih distinct
    have tidy := (run.tidy fresh willing).1
    have willing' := run.willing fresh willing
    refine ⟨affair.told later tidy willing' answered told, affair.chronicled later tidy willing'
      (run.orderly fresh) distinct (fun tracker => ?_) steady answered told chronicled⟩
    refine (run.once fresh willing x).not_delivers ?_
    rcases tracker with ⟨p, hp⟩ | ⟨t, ht, rfl⟩
    · exact ⟨p, .inl hp⟩
    · exact (run.tracking fresh willing ht).imp fun _ => .inr

/-- Once nobody can go on and the disk has done what it was asked for, the entry of a persisted
exchange in flight tells of its last hand-off, and whatever is restored from it has it. -/
theorem recorded_of_quiet {k : String} (fresh : s₀.Fresh) (willing : s₀.bus.Willing)
    (runs : Runs (fun s d s' => Steady s d ∧ Answered x s d s'.bus) s₀ s) (quiet : s.Quiet)
    (served : s.bus.asked ≤ s.bus.served) (distinct : s.bus.Distinct x)
    (flying : s.bus.inFlight.get? k = some x) (persists : s.bus.persists x = true) :
    ∃ v, s.bus.kept? k = some (s.bus.form k v) ∧ v.Tells (s.bus.exchange x) ∧
      ∀ e, s.bus.restored k (.ok (some v)) = .ok e → e.HandedAs (s.bus.exchange x) := by
  obtain ⟨-, chronicled⟩ := Runs.chronicled fresh willing runs fun _ => distinct
  obtain ⟨rfl, -, handed, kept⟩ := chronicled.flown k flying
  have recorded : s.bus.Recorded x := by
    refine (kept persists).resolve_right fun ⟨a, ha⟩ => ?_
    have asked := ((runs.tidy fresh willing).1.sound _ ha a rfl).ticket_lt
    have hw := quiet.waiting _ ha (.disk a.ticket) (List.mem_singleton.2 rfl)
    exact of_decide_eq_false hw (Nat.lt_of_lt_of_le asked served)
  obtain ⟨v, hv, tells⟩ := recorded
  refine ⟨v, hv, tells, fun e he => ?_⟩
  unfold restored at he
  dsimp only at he
  split at he
  · cases he
  · next snapshot read =>
    split at he
    · cases he
      exact tells.restored handed read _
    · cases he

theorem answered_of_hops (h : (s.bus.exchange x).hops = 2 ∨ (b.exchange x).hops ≠ 2) :
    Answered x s d b :=
  fun _ one two => h.elim (fun e => absurd e one) fun ne => absurd two ne

/-- The request is sent, and the processor hands its reply back itself. -/
theorem runs_responded : ∃ s, Runs (fun s d s' => Steady s d ∧ Answered 0 s d s'.bus)
    (keeping (.inMemory "exchanges")) s ∧ s.Quiet ∧ s.bus.asked ≤ s.bus.served ∧
    s.bus.Distinct 0 ∧ s.bus.inFlight.get? "" = some 0 ∧ s.bus.persists 0 = true := by
  have start : Runs (fun s d s' => Steady s d ∧ Answered 0 s d s'.bus)
    (keeping (.inMemory "exchanges")) (keeping (.inMemory "exchanges")) := .refl
  have sent := start.step (.ask (r := .send 0) Nat.one_pos)
    ⟨steady_of_isCalm rfl, answered_of_hops (.inr (by decide))⟩
  have tracked := sent.step (@Step.take _ (.tracker 0 true) [] [.processor 2 0 0 true] rfl)
    ⟨steady_of_isCalm rfl, answered_of_hops (.inr (by decide))⟩
  have begun := tracked.step (@Step.take _ (.processor 2 0 0 true) [] [] rfl)
    ⟨steady_of_isCalm rfl, answered_of_hops (.inr (by decide))⟩
  have replied := begun.step (.ask (r := .change 0 (.setOut .empty)) ⟨Nat.one_pos, rfl⟩)
    ⟨steady_of_isCalm rfl, answered_of_hops (.inr (by decide))⟩
  have responded := replied.step (.ask (r := .respond 0) Nat.one_pos)
    ⟨steady_of_isCalm rfl, fun _ _ _ => ⟨rfl, by decide⟩⟩
  have returned := responded.step (@Step.finish _ 2 0 0 true _ .returned (.refl _))
    ⟨steady_of_isCalm rfl, answered_of_hops (.inl (by decide))⟩
  have answered := returned.step (@Step.resume _
    (.sending (.processing 0 2 1000 ⟨.active, .provider, 1⟩)) _ (.swap _ _ _))
    ⟨steady_of_isCalm rfl, answered_of_hops (.inl (by decide))⟩
  have noticed := answered.step (@Step.resume _
    (.tracking (.watching 0 true ⟨.active, .provider, 1⟩)) _ (.refl _))
    ⟨steady_of_isCalm rfl, answered_of_hops (.inl (by decide))⟩
  refine ⟨_, noticed, ⟨rfl, fun j hj w hw => ?_⟩, Nat.le_refl 0, fun y hy _ => Nat.lt_one_iff.1 hy,
    rfl, rfl⟩
  cases List.mem_singleton.1 hj
  cases List.mem_singleton.1 hw
  rfl

theorem recorded_of_quiet_responded : ∃ s, (keeping (.inMemory "exchanges")).Fresh ∧
    (keeping (.inMemory "exchanges")).bus.Willing ∧
    Runs (fun s d s' => Steady s d ∧ Answered 0 s d s'.bus) (keeping (.inMemory "exchanges")) s ∧
    s.Quiet ∧ s.bus.asked ≤ s.bus.served ∧ s.bus.Distinct 0 ∧
    s.bus.inFlight.get? "" = some 0 ∧ s.bus.persists 0 = true ∧
    ∃ v, s.bus.kept? "" = some (s.bus.form "" v) ∧ v.Tells (s.bus.exchange 0) ∧
      ∀ e, s.bus.restored "" (.ok (some v)) = .ok e → e.HandedAs (s.bus.exchange 0) := by
  have fresh := fresh_keeping (.inMemory "exchanges")
  have willing := willing_keeping (.inMemory "exchanges") rfl
  obtain ⟨s, runs, quiet, served, distinct, flying, persists⟩ := runs_responded
  exact ⟨s, fresh, willing, runs, quiet, served, distinct, flying, persists,
    recorded_of_quiet fresh willing runs quiet served distinct flying persists⟩

/-- A reply that the bus hands back itself is missing in the entry. -/
theorem not_recorded_of_settled : ¬ ∀ (s₀ s : Traffic) (x : Nat) (k : String), s₀.Fresh →
    s₀.bus.Willing → Runs (fun s d _ => Steady s d) s₀ s → s.Quiet → s.bus.asked ≤ s.bus.served →
    s.bus.Distinct x → s.bus.inFlight.get? k = some x → s.bus.persists x = true →
    ∃ v, s.bus.kept? k = some (s.bus.form k v) ∧ v.Tells (s.bus.exchange x) := by
  intro claimed
  have start : Runs (fun s d _ => Steady s d) (keeping (.inMemory "exchanges"))
    (keeping (.inMemory "exchanges")) := .refl
  have sent := start.step (.ask (r := .send 0) Nat.one_pos) (steady_of_isCalm rfl)
  have tracked := sent.step (@Step.take _ (.tracker 0 true) [] [.processor 2 0 0 true] rfl)
    (steady_of_isCalm rfl)
  have begun := tracked.step (@Step.take _ (.processor 2 0 0 true) [] [] rfl)
    (steady_of_isCalm rfl)
  have replied := begun.step (.ask (r := .change 0 (.setOut .empty)) ⟨Nat.one_pos, rfl⟩)
    (steady_of_isCalm rfl)
  have returned := replied.step (@Step.finish _ 2 0 0 true _ .returned (.refl _))
    (steady_of_isCalm rfl)
  have settled := returned.step (@Step.resume _
    (.sending (.processing 0 2 1000 ⟨.active, .provider, 1⟩)) _ (.swap _ _ _))
    (steady_of_isCalm rfl)
  have noticed := settled.step (@Step.resume _
    (.tracking (.watching 0 true ⟨.active, .provider, 1⟩)) _ (.refl _)) (steady_of_isCalm rfl)
  obtain ⟨v, kept, tells⟩ := claimed (keeping (.inMemory "exchanges")) _ 0 ""
    (fresh_keeping _) (willing_keeping _ rfl) noticed
    ⟨rfl, fun j hj w hw => by
      cases List.mem_singleton.1 hj
      cases List.mem_singleton.1 hw
      rfl⟩ (Nat.le_refl 0) (fun y hy _ => Nat.lt_one_iff.1 hy) rfl rfl
  -- the entry has the first hop only
  have hops := tells.hops
  cases kept
  cases (Json.get?_canonical_snapshot _ "hops").symm.trans hops

end Traffic
end ServiceBus
