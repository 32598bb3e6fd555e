import ServiceBus.Proofs.Bus.Affairs

/-!
# The calls that wait for the disk

Every job that waits for the disk has a call on the store's directory that suits it: a write of its
own exchange's entry, a removal of it, or a read (`Job.Suits`). No two writes share a temporary
file, and once such a file is filled its content stays until it is renamed (`Access.Sound`). All of
this holds along every run (`Runs.tidy`).
-/

namespace ServiceBus

namespace Job

/-- The call that the job has on the store. -/
def access? : Job → Option Access
  | .sending (.persisting _ _ _ a) | .sending (.responding _ a) | .retrieving a
  | .tracking (.removing _ a) => some a
  | _ => none

/-- The entry that the job is writing. -/
def writing? (j : Job) : Option Writing := j.access?.bind (·.call.writing?)

def mark? (j : Job) : Option Nat := j.writing?.map (·.mark)

/-- The job's call on the store is for the exchange that the job is about. -/
def Suits (b : Bus) : Job → Prop
  | .sending (.persisting x _ _ a) | .sending (.responding x a) =>
    x < b.exchanges.size ∧ ∃ w, a.call.writing? = some w ∧ w.id = (b.exchange x).id
  | .retrieving a => ∃ directory id, a.call = .reading directory id
  | .tracking (.removing x a) =>
    x < b.exchanges.size ∧ (b.exchange x).status ≠ .active ∧
      ∃ directory, a.call = .removing directory (b.exchange x).id
  | _ => True

/-- The exchange whose entry the job writes or removes. -/
def subject? : Job → Option Nat
  | .sending (.persisting x _ _ _) | .sending (.responding x _)
  | .tracking (.removing x _) => some x
  | _ => none

theorem Suits.subject {b : Bus} {j : Job} {x : Nat} {a : Access} (h : j.Suits b)
    (hx : j.subject? = some x) (ha : j.access? = some a) :
    x < b.exchanges.size ∧ a.call.id = (b.exchange x).id := by
  match j, h, hx, ha with
  | .sending (.persisting ..), ⟨hx, w, hw, e⟩, rfl, rfl
  | .sending (.responding ..), ⟨hx, w, hw, e⟩, rfl, rfl =>
    exact ⟨hx, (DirectoryCall.id_of_writing hw).trans e⟩
  | .tracking (.removing ..), ⟨hx, _, d, e⟩, rfl, rfl => exact ⟨hx, by rw [e]; rfl⟩

/-- The ways of a job to wait for a call on the store. -/
inductive Holder : (Access → Job) → Prop
  | persisting (x : Nat) (t : Endpoint) (d : Delivery) :
    Holder fun a => .sending (.persisting x t d a)
  | responding (x : Nat) : Holder fun a => .sending (.responding x a)
  | retrieving : Holder .retrieving
  | removing (x : Nat) : Holder fun a => .tracking (.removing x a)

theorem Holder.access?_eq {f : Access → Job} (h : Holder f) (a : Access) :
    (f a).access? = some a := by
  cases h <;> rfl

/-- A call that has gone on suits its job still. -/
theorem Holder.suits {f : Access → Job} (h : Holder f) {b : Bus} {a a' : Access}
    (ha : (f a).Suits b) (writes : ∀ w, a.call.writing? = some w → a'.call.writing? = some w)
    (stays : a.call.writing? = none → a'.call = a.call) : (f a').Suits b := by
  cases h with
  | persisting | responding =>
    obtain ⟨hx, w, hw, e⟩ := ha
    exact ⟨hx, w, writes w hw, e⟩
  | retrieving =>
    obtain ⟨d, i, e⟩ := ha
    exact ⟨d, i, (stays (by rw [e]; rfl)).trans e⟩
  | removing =>
    obtain ⟨hx, ended, d, e⟩ := ha
    exact ⟨hx, ended, d, (stays (by rw [e]; rfl)).trans e⟩

theorem access?_of_isIdle {j : Job} (h : j.isIdle = true) : j.access? = none := by
  match j, h with
  | .sending (.processing ..), _ | .sending (.queueing ..), _ | .sending (.replying ..), _
  | .watching _, _ | .accepting _, _ | .draining _, _ | .shuttingDown _, _ | .closing _, _
  | .processing .., _ => rfl

theorem suits_of_access? {j : Job} (h : j.access? = none) (b : Bus) : j.Suits b := by
  match j, h with
  | .sending (.processing ..), _ | .sending (.queueing ..), _ | .sending (.replying ..), _
  | .watching _, _ | .accepting _, _ | .draining _, _ | .shuttingDown _, _ | .closing _, _
  | .processing .., _ | .tracking (.watching ..), _ => trivial

end Job

/-- Whether the temporary file is complete and has yet to be renamed. -/
def DirectoryCall.isFilled : DirectoryCall → Bool
  | .syncing _ | .renaming _ => true
  | _ => false

/-- The call has been made on the store's directory, and its temporary file is as it left it. -/
structure Access.Sound (b : Bus) (a : Access) : Prop where
  placed : b.place? = some a.call.directory
  ticket_lt : a.ticket < b.asked
  mark_lt : ∀ w, a.call.writing? = some w → w.mark < b.fresh
  filled : ∀ w, a.call.writing? = some w → a.call.isFilled = true →
    b.files.content? w.temporary = some w.content

namespace Bus
variable {b b' b'' : Bus} {x : Nat} {a a' : Access} {w : Writing} {jobs gone come others : List Job}

/-! ### Later -/

/-- From `b` to `b'` time has passed: exchanges have evolved, numbers have been taken and the store
has stayed where it is. -/
structure Later (b b' : Bus) : Prop extends Evolves b b' where
  asked_le : b.asked ≤ b'.asked
  fresh_le : b.fresh ≤ b'.fresh
  store : Rewrites b b'.kept? b'

theorem Rewrites.own {f : String → Option Kept} (h : Rewrites b f b') : Rewrites b b'.kept? b' :=
  { h with kept_eq := fun _ => rfl }

namespace Later

theorem refl (b : Bus) : Later b b := ⟨.refl b, Nat.le_refl _, Nat.le_refl _, .refl b⟩

theorem trans (h : Later b b') (k : Later b' b'') : Later b b'' where
  toEvolves := h.toEvolves.trans k.toEvolves
  asked_le := Nat.le_trans h.asked_le k.asked_le
  fresh_le := Nat.le_trans h.fresh_le k.fresh_le
  store := h.store.trans k.store

theorem of_spares (h : Spares b b') : Later b b' :=
  ⟨h.toEvolves, Nat.le_of_eq h.asked_eq.symm, h.fresh_le, h.rewrites.own⟩

theorem of_stirs (h : Stirs b b') : Later b b' := of_spares (.of_stirs h)

theorem of_moved {c : Change} (h : Moved b x c b') : Later b b' :=
  ⟨h.toEvolves, Nat.le_of_eq (congrArg Ledger.asked h.ledger_eq).symm, Nat.le_of_eq h.fresh_eq.symm,
    (Rewrites.of_ledger h.ledger_eq).own⟩

theorem of_calls {f : String → Option Kept} (h : Calls b b') (k : Rewrites b f b') : Later b b' :=
  ⟨h.evolves, h.asked_le, h.fresh_le, k.own⟩

theorem track (b : Bus) (x : Nat) : Later b (b.track x) :=
  ⟨.of_eq rfl, Nat.le_refl _, Nat.le_refl _, Rewrites.own (f := b.kept?) (.of_eq rfl rfl rfl)⟩

theorem untrack (b : Bus) (x : Nat) : Later b (b.untrack x) :=
  ⟨.of_eq rfl, Nat.le_refl _, Nat.le_refl _, Rewrites.own (f := b.kept?) (.of_eq rfl rfl rfl)⟩

theorem leaving (b : Bus) (ls : List Launch) : Later b (b.leaving ls) :=
  ⟨.of_eq rfl, Nat.le_refl _, Nat.le_refl _, Rewrites.own (f := b.kept?) (.of_eq rfl rfl rfl)⟩

/-- Ids stay, and what has ended stays ended. -/
theorem id_eq (h : Later b b') (hx : x < b.exchanges.size) :
    (b'.exchange x).id = (b.exchange x).id :=
  (h.leads x hx).onward.id_eq

theorem ended (h : Later b b') (hx : x < b.exchanges.size)
    (he : (b.exchange x).status ≠ .active) : (b'.exchange x).status ≠ .active := by
  rwa [(h.leads x hx).onward.ended_kept he]

end Later

end Bus

open Bus

theorem Job.Suits.later {b b' : Bus} {j : Job} (h : j.Suits b) (l : Later b b') : j.Suits b' := by
  match j, h with
  | .sending (.persisting x t d a), ⟨hx, w, hw, e⟩ =>
    exact ⟨Nat.lt_of_lt_of_le hx l.size_le, w, hw, e.trans (l.id_eq hx).symm⟩
  | .sending (.responding x a), ⟨hx, w, hw, e⟩ =>
    exact ⟨Nat.lt_of_lt_of_le hx l.size_le, w, hw, e.trans (l.id_eq hx).symm⟩
  | .retrieving a, h => exact h
  | .tracking (.removing x a), ⟨hx, ended, d, e⟩ =>
    exact ⟨Nat.lt_of_lt_of_le hx l.size_le, l.ended hx ended, d, by rw [e, l.id_eq hx]⟩
  | .sending (.processing ..), _ | .sending (.queueing ..), _ | .sending (.replying ..), _
  | .watching _, _ | .accepting _, _ | .draining _, _ | .shuttingDown _, _ | .closing _, _
  | .processing .., _ | .tracking (.watching ..), _ => trivial

theorem Access.Sound.later {b b' : Bus} {a : Access} (h : a.Sound b) (l : Later b b')
    (content : ∀ w, a.call.writing? = some w →
      b'.files.content? w.temporary = b.files.content? w.temporary) : a.Sound b' where
  placed := l.store.place_eq.trans h.placed
  ticket_lt := Nat.lt_of_lt_of_le h.ticket_lt l.asked_le
  mark_lt w hw := Nat.lt_of_lt_of_le (h.mark_lt w hw) l.fresh_le
  filled w hw hf := (content w hw).trans (h.filled w hw hf)

namespace Bus
variable {b b' b'' : Bus} {x n : Nat} {a a' : Access} {w : Writing}
  {jobs gone come others : List Job}

/-- The jobs' calls on the store suit them, and no two of them write the same temporary file. -/
structure Tidy (b : Bus) (jobs : List Job) : Prop where
  sound : ∀ j ∈ jobs, ∀ a, j.access? = some a → a.Sound b
  suits : ∀ j ∈ jobs, j.Suits b
  apart : (jobs.filterMap Job.mark?).Nodup

namespace Tidy

theorem perm (h : b.Tidy jobs) (p : jobs.Perm others) : b.Tidy others where
  sound j hj := h.sound j (p.mem_iff.2 hj)
  suits j hj := h.suits j (p.mem_iff.2 hj)
  apart := (p.filterMap Job.mark?).nodup_iff.1 h.apart

theorem tail {j : Job} (h : b.Tidy (j :: jobs)) : b.Tidy jobs where
  sound k hk := h.sound k (List.mem_cons_of_mem _ hk)
  suits k hk := h.suits k (List.mem_cons_of_mem _ hk)
  apart := h.apart.sublist ((List.sublist_cons_self j jobs).filterMap Job.mark?)

theorem mark_lt (h : b.Tidy jobs) {m : Nat} (hm : m ∈ jobs.filterMap Job.mark?) : m < b.fresh := by
  obtain ⟨j, hj, hm⟩ := List.mem_filterMap.1 hm
  obtain ⟨w, hw, rfl⟩ := Option.map_eq_some_iff.1 hm
  obtain ⟨a, ha, hw⟩ := Option.bind_eq_some_iff.1 hw
  exact (h.sound j hj a ha).mark_lt w hw

/-- Some jobs give way to others, which write with marks of theirs or with new ones. -/
theorem step (come : List Job) (h : b.Tidy (gone ++ others)) (l : Later b b')
    (content : ∀ j ∈ others, ∀ w, j.writing? = some w →
      b'.files.content? w.temporary = b.files.content? w.temporary)
    (sound : ∀ j ∈ come, ∀ a, j.access? = some a → a.Sound b') (suits : ∀ j ∈ come, j.Suits b')
    (apart : (come.filterMap Job.mark?).Nodup)
    (marks : ∀ m ∈ come.filterMap Job.mark?, m ∈ gone.filterMap Job.mark? ∨ b.fresh ≤ m) :
    b'.Tidy (come ++ others) := by
  refine ⟨fun j hj a ha => ?_, fun j hj => ?_, ?_⟩
  · rcases List.mem_append.1 hj with hj | hj
    · exact sound j hj a ha
    · refine (h.sound j (List.mem_append_right _ hj) a ha).later l fun w hw => ?_
      exact content j hj w (Option.bind_eq_some_iff.2 ⟨a, ha, hw⟩)
  · rcases List.mem_append.1 hj with hj | hj
    · exact suits j hj
    · exact (h.suits j (List.mem_append_right _ hj)).later l
  · have ho := h.apart
    rw [List.filterMap_append, List.nodup_append] at ho ⊢
    refine ⟨apart, ho.2.1, fun m hm k hk e => ?_⟩
    subst e
    rcases marks m hm with hg | hf
    · exact ho.2.2 m hg m hk rfl
    · have hm : m ∈ (gone ++ others).filterMap Job.mark? := by
        rw [List.filterMap_append]
        exact List.mem_append_right _ hk
      exact absurd (h.mark_lt hm) (Nat.not_lt.2 hf)

/-- Jobs without calls on the store come and go. -/
theorem idle (gone : List Job) (h : b.Tidy (gone ++ others)) (l : Later b b')
    (content : ∀ j ∈ others, ∀ w, j.writing? = some w →
      b'.files.content? w.temporary = b.files.content? w.temporary)
    (idle : ∀ j ∈ come, j.access? = none) : b'.Tidy (come ++ others) := by
  have hm (j : Job) (hj : j ∈ come) : j.mark? = none := by
    rw [Job.mark?, Job.writing?, idle j hj]
    rfl
  have hnil : come.filterMap Job.mark? = [] := List.filterMap_eq_nil_iff.2 hm
  refine step come h l content (fun j hj a ha => ?_)
    (fun j hj => Job.suits_of_access? (idle j hj) b') ?_ ?_
  · rw [idle j hj] at ha
    cases ha
  · rw [hnil]
    exact List.nodup_nil
  · rw [hnil]
    exact fun m hm => absurd hm List.not_mem_nil

/-- A job's call on the store begins or goes on. -/
theorem call {j : Job} (gone : List Job) (h : b.Tidy (gone ++ others)) (l : Later b b')
    (content : ∀ j ∈ others, ∀ w, j.writing? = some w →
      b'.files.content? w.temporary = b.files.content? w.temporary)
    (sound : ∀ a, j.access? = some a → a.Sound b') (suits : j.Suits b')
    (mark : ∀ m, j.mark? = some m → m ∈ gone.filterMap Job.mark? ∨ b.fresh ≤ m) :
    b'.Tidy (j :: others) := by
  have hj : ([j] : List Job).filterMap Job.mark? = j.mark?.toList := by
    cases hm : j.mark? <;> simp [hm]
  refine step [j] h l content (fun k hk => ?_) (fun k hk => ?_) ?_ fun m hm => ?_
  · rw [List.mem_singleton.1 hk]
    exact sound
  · rw [List.mem_singleton.1 hk]
    exact suits
  · rw [hj]
    cases j.mark? <;> simp
  · rw [hj, Option.mem_toList] at hm
    exact mark m hm

end Tidy

/-! ### Calls that begin or go on -/

theorem files_callStore (b : Bus) (n : Nat) (c : StoreCall) :
    (b.callStore n c).1.files = b.files := by
  rw [callStore_eq]
  cases ((b.store n).start b.fresh c).2 <;> rfl

theorem files_persist (b : Bus) (x : Nat) : (b.persist x).1.files = b.files := by
  unfold persist
  split
  · rfl
  · exact files_callStore b _ _

theorem resumeAccess_cases (b : Bus) (a : Access) :
    b.resumeAccess a = (b, .waiting a) ∨
    (a.ticket < b.served ∧ b.resumeAccess a = (b.performed a.call.operation).await
      (a.call.resume (b.files.perform a.call.operation).2)) := by
  unfold resumeAccess
  split
  · next h => exact .inr ⟨of_decide_eq_true h, rfl⟩
  · exact .inl rfl

theorem files_await (b : Bus) (t : Turn DirectoryCall StoreAnswer) :
    (b.await t).1.files = b.files := by
  cases t <;> rfl

/-- A call that waits after its turn has not moved, or waits for the next operation. -/
theorem waiting_resumeAccess (call : b.resumeAccess a = (b', .waiting a')) :
    (b' = b ∧ a' = a) ∨
    (b'.asked = b.asked + 1 ∧ a'.ticket = b.asked ∧
      b'.files = (b.files.perform a.call.operation).1 ∧
      a.call.resume (b.files.perform a.call.operation).2 = .waiting a'.call) := by
  rcases resumeAccess_cases b a with e | ⟨-, e⟩ <;> rw [call] at e
  · exact .inl ⟨congrArg Prod.fst e, Turn.waiting.inj (congrArg Prod.snd e)⟩
  · cases hr : a.call.resume (b.files.perform a.call.operation).2 with
    | ended r => rw [hr] at e; exact absurd (congrArg Prod.snd e) nofun
    | waiting c =>
      rw [hr] at e
      have hb : b' = _ := congrArg Prod.fst e
      have ha : a' = _ := Turn.waiting.inj (congrArg Prod.snd e)
      rw [hb, ha]
      exact .inr ⟨rfl, rfl, rfl, rfl⟩

theorem ticket_lt_resumeAccess (h : a.ticket < b.asked)
    (call : b.resumeAccess a = (b', .waiting a')) : a'.ticket < b'.asked := by
  obtain ⟨rfl, rfl⟩ | ⟨hb, ha, -⟩ := waiting_resumeAccess call
  · exact h
  · rw [hb, ha]
    exact Nat.lt_succ_self _

/-- A call's turn leaves the temporary files of other writes alone. -/
theorem content?_resumeAccess (b : Bus)
    (ne : ∀ v, a.call.writing? = some v → v.mark ≠ w.mark) :
    (b.resumeAccess a).1.files.content? w.temporary = b.files.content? w.temporary := by
  rcases resumeAccess_cases b a with e | ⟨-, e⟩ <;> rw [e]
  rw [files_await]
  exact b.files.content?_temporary ne

/-- A write's turn fills its temporary file, or leaves it filled. -/
theorem filled_resumeAccess (hw : a.call.writing? = some w)
    (filled : a.call.isFilled = true → b.files.content? w.temporary = some w.content)
    (call : b.resumeAccess a = (b', .waiting a')) (hf : a'.call.isFilled = true) :
    b'.files.content? w.temporary = some w.content := by
  obtain ⟨rfl, rfl⟩ | ⟨-, -, hfiles, hr⟩ := waiting_resumeAccess call
  · exact filled hf
  rw [hfiles]
  generalize hp : (b.files.perform a.call.operation).2 = r at hr
  generalize a'.call = c' at hr hf
  generalize a.call = c at hw filled hp hr
  cases r with
  | error e =>
    -- after a failure the temporary file is only discarded
    cases c <;> cases hw <;> cases hr <;> cases hf
  | ok d =>
    cases c with
    | filling v =>
      cases hw
      exact Tree.content?_perform_write hp
    | syncing v =>
      cases hw
      exact filled rfl
    | _ => cases hw <;> cases hr <;> cases hf

theorem writing?_resumeAccess (hp : b.place? = some a.call.directory)
    (call : b.resumeAccess a = (b', .waiting a')) :
    (∀ w, a.call.writing? = some w → a'.call.writing? = some w) ∧
      (a.call.writing? = none → a'.call = a.call) ∧ a'.call.directory = a.call.directory := by
  have hg := goes hp
  rw [call] at hg
  cases hg with
  | waits => exact ⟨fun _ h => h, fun _ => rfl, rfl⟩
  | next next same =>
    obtain ⟨w, hw⟩ : ∃ w, a.call.writing? = some w := by
      generalize a.call = c at next
      cases next <;> first | exact ⟨_, rfl⟩ | exact ⟨_, ‹_›⟩
    have hw' := next.writing?_eq.trans hw
    refine ⟨fun v hv => next.writing?_eq.trans hv, fun h => ?_, ?_⟩
    · rw [hw] at h
      cases h
    · rw [DirectoryCall.directory_of_writing hw, DirectoryCall.directory_of_writing hw']
  | renames hc =>
    rw [hc]
    exact ⟨fun _ h => h, nofun, rfl⟩

namespace Later

theorem callStore (willing : b.Willing) (hs : b.settings.store = some n) (c : StoreCall) :
    Later b (b.callStore n c).1 := by
  have hc := Calls.callStore b n c
  have hb := begins willing hs c
  generalize b.callStore n c = r at hc hb
  obtain ⟨b', t⟩ := r
  cases hb with
  | asks _ h | answered _ h => exact of_calls hc h

theorem persist (willing : b.Willing) (x : Nat) : Later b (b.persist x).1 := by
  unfold Bus.persist
  split
  · exact refl b
  · next hs => exact callStore willing hs _

theorem retrieve (willing : b.Willing) (id : String) : Later b (b.retrieve id).1 := by
  unfold Bus.retrieve
  split
  · exact refl b
  · next hs => exact callStore willing hs _

theorem resumeAccess (hp : b.place? = some a.call.directory) : Later b (b.resumeAccess a).1 := by
  have hc := Calls.resumeAccess b a
  have hg := goes hp
  generalize b.resumeAccess a = r at hc hg
  obtain ⟨b', t⟩ := r
  cases hg with
  | waits => exact refl _
  | next _ h | renames _ h | removes _ h | reads _ h | written _ h | failed _ h =>
    exact of_calls hc h

end Later

namespace Tidy
variable {f : Access → Job}

theorem later (h : b.Tidy jobs) (l : Later b b') (files_eq : b'.files = b.files) : b'.Tidy jobs :=
  idle [] h l (fun _ _ _ _ => by rw [files_eq]) fun _ hj => absurd hj List.not_mem_nil

/-- A call on the store begins. -/
theorem callStore (holder : Job.Holder f) (h : b.Tidy others) (willing : b.Willing)
    (hs : b.settings.store = some n) {c : StoreCall}
    (suits : ∀ directory, (f ⟨b.asked, c.begin directory b.fresh⟩).Suits b) :
    (b.callStore n c).1.Tidy ((b.callStore n c).2.jobs f ++ others) := by
  have l := Later.callStore willing hs c
  have hfiles := files_callStore b n c
  have hb := begins willing hs c
  generalize b.callStore n c = r at l hfiles hb
  obtain ⟨b', t⟩ := r
  cases hb with
  | answered => exact h.later l hfiles
  | @asks directory place same files_eq asked_eq fresh_eq =>
    refine call [] h l (fun _ _ _ _ => by rw [hfiles]) (fun a ha => ?_)
      ((suits directory).later l) fun m hm => .inr ?_
    · rw [holder.access?_eq] at ha
      cases ha
      refine ⟨?_, asked_eq ▸ Nat.lt_succ_self _, fun w hw => ?_, fun w hw hf => ?_⟩
      · rw [same.place_eq, place]
        cases c <;> rfl
      · cases c <;> cases hw
        exact fresh_eq ▸ Nat.lt_succ_self _
      · cases c <;> cases hf
    · simp only [Job.mark?, Job.writing?, holder.access?_eq, Option.bind_some,
        Option.map_eq_some_iff] at hm
      obtain ⟨w, hw, rfl⟩ := hm
      cases c <;> cases hw
      exact Nat.le_refl _

/-- A call on the store has its turn. -/
theorem resumeAccess (holder : Job.Holder f) (h : b.Tidy (f a :: others)) :
    (b.resumeAccess a).1.Tidy ((b.resumeAccess a).2.jobs f ++ others) := by
  have sound := h.sound (f a) List.mem_cons_self a (holder.access?_eq a)
  have l := Later.resumeAccess sound.placed
  have content (j : Job) (hj : j ∈ others) (w : Writing) (hw : j.writing? = some w) :
      (b.resumeAccess a).1.files.content? w.temporary = b.files.content? w.temporary := by
    refine content?_resumeAccess b fun v hv e => ?_
    -- two writes with one mark
    have hmark : (f a).mark? = some w.mark := by
      simp [Job.mark?, Job.writing?, holder.access?_eq, hv, e]
    have apart := h.apart
    rw [List.filterMap_cons_some hmark, List.nodup_cons] at apart
    exact apart.1 (List.mem_filterMap.2 ⟨j, hj, by rw [Job.mark?, hw]; rfl⟩)
  generalize hr : b.resumeAccess a = r at l content
  obtain ⟨b', r | a'⟩ := r
  · exact idle [f a] h l content fun _ hj => absurd hj List.not_mem_nil
  obtain ⟨writes, stays, directory⟩ := writing?_resumeAccess sound.placed hr
  have back (w : Writing) (hw : a'.call.writing? = some w) : a.call.writing? = some w := by
    cases ha : a.call.writing? with
    | none => rw [stays ha, ha] at hw; cases hw
    | some v => rwa [writes v ha] at hw
  refine call [f a] h l content (fun k hk => ?_)
    ((holder.suits (h.suits _ List.mem_cons_self) writes stays).later l) fun m hm => .inl ?_
  · rw [holder.access?_eq] at hk
    cases hk
    refine ⟨?_, ticket_lt_resumeAccess sound.ticket_lt hr, fun w hw => ?_, fun w hw hf => ?_⟩
    · rw [directory]
      exact l.store.place_eq.trans sound.placed
    · exact Nat.lt_of_lt_of_le (sound.mark_lt w (back w hw)) l.fresh_le
    · exact filled_resumeAccess (back w hw) (sound.filled w (back w hw)) hr hf
  · simp only [Job.mark?, Job.writing?, holder.access?_eq, Option.bind_some,
      Option.map_eq_some_iff] at hm
    obtain ⟨w, hw, rfl⟩ := hm
    simp [Job.mark?, Job.writing?, holder.access?_eq, back w hw]

theorem persist (holder : Job.Holder f) (h : b.Tidy others) (willing : b.Willing)
    (persists : b.persists x = true)
    (suits : ∀ a w, a.call.writing? = some w → w.id = (b.exchange x).id → (f a).Suits b) :
    (b.persist x).1.Tidy ((b.persist x).2.jobs f ++ others) := by
  obtain ⟨n, hn⟩ := store_of_persists persists
  rw [persist_of_store hn]
  exact callStore holder h willing hn fun directory => suits _ _ rfl rfl

theorem retrieve (h : b.Tidy jobs) (willing : b.Willing) (id : String) :
    (b.retrieve id).1.Tidy ((b.retrieve id).2.jobs .retrieving ++ jobs) := by
  unfold Bus.retrieve
  split
  · exact h
  · next hn => exact callStore .retrieving h willing hn fun directory => ⟨directory, id, rfl⟩

end Tidy

/-- Who sees that a dispatched exchange has ended is right. -/
theorem Dispatched.ended (h : b.Dispatched x) (reached : b.reached x .completion = true) :
    (b.exchange x).status ≠ .active := h.sent.isComplete_iff.1 reached

/-- A tracker's turn. -/
theorem Follows.tidy {persisted : Bool} (h : Follows b x persisted b' come) (tidy : b.Tidy jobs)
    (willing : b.Willing) (dispatched : b.Dispatched x) :
    b'.Tidy (come ++ jobs) ∧ Later b b' := by
  cases h with
  | watches =>
    exact ⟨.idle [] tidy (.refl b) (fun _ _ _ _ => rfl) (by simp [Job.access?]), .refl b⟩
  | asks ended store call =>
    have l := Later.callStore willing store (.remove (b.exchange x).id)
    have ht := tidy.callStore (.removing x) willing store (c := .remove (b.exchange x).id)
      fun directory => ⟨dispatched.lt_size, dispatched.ended ended, directory, rfl⟩
    rw [call] at l ht
    exact ⟨ht, l⟩
  | @removes n _ _ ended store call =>
    have l := Later.callStore willing store (.remove (b.exchange x).id)
    have hfiles := files_callStore b n (.remove (b.exchange x).id)
    rw [call] at l hfiles
    exact ⟨tidy.later (l.trans (.untrack _ x)) hfiles, l.trans (.untrack _ x)⟩
  | leaves => exact ⟨tidy.later (.untrack b x) rfl, .untrack b x⟩

end Bus

namespace Bus
variable {b b' : Bus} {x : Nat} {a : Access} {j : Job} {jobs others : List Job}

theorem Moved.tidy {c : Change} (h : Moved b x c b') (tidy : b.Tidy jobs) :
    b'.Tidy jobs ∧ Later b b' :=
  ⟨tidy.later (.of_moved h) (congrArg Ledger.files h.ledger_eq), .of_moved h⟩

theorem Tidy.delivered {come : List Job} (h : b.Tidy jobs) (spares : Spares (b.track x) b')
    (come_idle : ∀ j ∈ come, j.isIdle = true) : b'.Tidy (come ++ jobs) ∧ Later b b' := by
  have l := (Later.track b x).trans (.of_spares spares)
  exact ⟨.idle [] h l (fun _ _ _ _ => by rw [spares.files_eq]; rfl)
    fun j hj => Job.access?_of_isIdle (come_idle j hj), l⟩

/-- No other exchange has the id of `x`. -/
def Distinct (b : Bus) (x : Nat) : Prop :=
  ∀ y, y < b.exchanges.size → (b.exchange y).id = (b.exchange x).id → y = x

theorem Distinct.ne (h : b.Distinct x) {y : Nat} (hy : y < b.exchanges.size) (ne : y ≠ x) :
    (b.exchange x).id ≠ (b.exchange y).id := fun e => ne (h y hy e.symm)

theorem Distinct.of_later (h : b'.Distinct x) (l : Later b b') (hx : x < b.exchanges.size) :
    b.Distinct x := by
  intro y hy e
  refine h y (Nat.lt_of_lt_of_le hy l.size_le) ?_
  rw [l.id_eq hy, l.id_eq hx, e]

theorem Tidy.placed (h : b.Tidy jobs) (job : jobs.Perm (j :: others)) (ha : j.access? = some a) :
    b.place? = some a.call.directory :=
  (h.sound j (job.mem_iff.2 List.mem_cons_self) a ha).placed

/-- Going on with the entry of another exchange leaves that of `x` alone. -/
theorem Tidy.kept?_resumeAccess {y : Nat} {t : Turn Access StoreAnswer} (h : b.Tidy jobs)
    (job : jobs.Perm (j :: others)) (hy : j.subject? = some y) (ha : j.access? = some a)
    (call : b.resumeAccess a = (b', t)) (distinct : b.Distinct x) (ne : y ≠ x) :
    b'.kept? (b.exchange x).id = b.kept? (b.exchange x).id := by
  obtain ⟨lt, e⟩ := (h.suits j (job.mem_iff.2 List.mem_cons_self)).subject hy ha
  have hk := Bus.kept?_resumeAccess (h.placed job ha) (e ▸ distinct.ne lt ne)
  rwa [call] at hk

/-- Writing down an exchange that has just been moved changes only its own entry. -/
theorem Moved.kept?_persist {c : Change} {y : Nat} {b'' : Bus} {t : Turn Access StoreAnswer}
    (h : Moved b y c b') (willing : b.Willing) (call : b'.persist y = (b'', t))
    (distinct : b.Distinct x) (ne : y ≠ x) :
    b''.kept? (b.exchange x).id = b.kept? (b.exchange x).id := by
  have l := Later.of_moved h
  have hk := Bus.kept?_persist (willing.rewrites l.store)
    (l.id_eq h.lt_size ▸ distinct.ne h.lt_size ne)
  rw [call] at hk
  exact hk.trans ((Rewrites.of_ledger h.ledger_eq).kept_eq _)

theorem Moved.kept?_ready {c : Change} {y : Nat} {b'' : Bus} (h : Moved b y c b')
    (willing : b.Willing) (ready : (b'.persists y = false ∧ b'' = b') ∨
      ∃ v, b'.persists y = true ∧ b'.persist y = (b'', .ended (.ok v)))
    (distinct : b.Distinct x) (ne : y ≠ x) :
    b''.kept? (b.exchange x).id = b.kept? (b.exchange x).id := by
  obtain ⟨-, rfl⟩ | ⟨v, -, call⟩ := ready
  · exact (Rewrites.of_ledger h.ledger_eq).kept_eq _
  · exact h.kept?_persist willing call distinct ne

/-- A store that is willing writes down what has just been moved. -/
theorem Moved.not_refused {c : Change} {y : Nat} {b'' : Bus} {e : StoreError} (h : Moved b y c b')
    (willing : b.Willing) (persists : b'.persists y = true) :
    b'.persist y ≠ (b'', .ended (.error e)) := by
  intro call
  have hb := begins_persist (willing.rewrites (Later.of_moved h).store) persists
  rw [call] at hb
  cases hb with
  | answered _ _ ok => cases ok nofun

end Bus

namespace Traffic
variable {s s₀ : Traffic} {d : Deed} {b : Bus} {jobs : List Job}
  {P : Traffic → Deed → Traffic → Prop}

theorem Affair.tidy (h : s.Affair d b jobs) (tidy : s.bus.Tidy s.jobs) (willing : s.bus.Willing)
    (ordered : s.bus.Orderly s.jobs) : b.Tidy jobs ∧ Later s.bus b := by
  cases h with
  | aside gone come spares replies deed jobs come_idle gone_idle =>
    have l := Later.of_spares spares
    exact ⟨(tidy.perm jobs).idle gone l (fun _ _ _ _ => by rw [spares.files_eq])
      fun j hj => Job.access?_of_isIdle (come_idle j hj), l⟩
  | @writes x t delivery b₁ _ a moved persists call =>
    obtain ⟨tm, lm⟩ := moved.tidy tidy
    have lp := Later.persist (willing.rewrites lm.store) x
    have tp := tm.persist (.persisting x t delivery) (willing.rewrites lm.store) persists
      fun a w hw e => ⟨Nat.lt_of_lt_of_le moved.lt_size moved.size_le, w, hw, e⟩
    rw [call] at lp tp
    exact ⟨tp, lm.trans lp⟩
  | @delivers x t b₁ b₂ _ come moved ready spares come_idle =>
    obtain ⟨tm, lm⟩ := moved.tidy tidy
    obtain ⟨tp, lp⟩ : b₂.Tidy s.jobs ∧ Later b₁ b₂ := by
      obtain ⟨-, rfl⟩ | ⟨v, persists, call⟩ := ready
      · exact ⟨tm, .refl _⟩
      · have lp := Later.persist (willing.rewrites lm.store) x
        have hfiles := files_persist b₁ x
        rw [call] at lp hfiles
        exact ⟨tm.later lp hfiles, lp⟩
    obtain ⟨td, ld⟩ := tp.delivered spares come_idle
    exact ⟨td, (lm.trans lp).trans ld⟩
  | @refused x t b₁ b₂ _ e moved persists call stirs =>
    obtain ⟨tm, lm⟩ := moved.tidy tidy
    have lp := Later.persist (willing.rewrites lm.store) x
    have hfiles := files_persist b₁ x
    rw [call] at lp hfiles
    have l := lp.trans (.of_stirs stirs)
    exact ⟨tm.later l ((congrArg Ledger.files stirs.ledger_eq).trans hfiles), lm.trans l⟩
  | @writing x t delivery a a' _ others job call =>
    have tr := (tidy.perm job).resumeAccess (.persisting x t delivery)
    have lr := Later.resumeAccess (tidy.placed job rfl)
    rw [call] at tr lr
    exact ⟨tr, lr⟩
  | @written x t delivery a b₁ _ v come others job call spares come_idle =>
    have tr := (tidy.perm job).resumeAccess (.persisting x t delivery)
    have lr := Later.resumeAccess (tidy.placed job rfl)
    rw [call] at tr lr
    obtain ⟨td, ld⟩ := tr.delivered spares come_idle
    exact ⟨td, lr.trans ld⟩
  | @unwritten x t delivery a b₁ _ e others job call stirs =>
    have tr := (tidy.perm job).resumeAccess (.persisting x t delivery)
    have lr := Later.resumeAccess (tidy.placed job rfl)
    rw [call] at tr lr
    exact ⟨tr.later (.of_stirs stirs) (congrArg Ledger.files stirs.ledger_eq),
      lr.trans (.of_stirs stirs)⟩
  | @replies x _ b₁ replies moved persists =>
    obtain ⟨tm, lm⟩ := moved.tidy tidy
    have willing₁ := willing.rewrites lm.store
    exact ⟨tm.persist (.responding x) willing₁ persists
      fun a w hw e => ⟨Nat.lt_of_lt_of_le moved.lt_size moved.size_le, w, hw, e⟩,
      lm.trans (.persist willing₁ x)⟩
  | @replying x a others job =>
    exact ⟨(tidy.perm job).resumeAccess (.responding x), .resumeAccess (tidy.placed job rfl)⟩
  | retrieves id => exact ⟨tidy.retrieve willing id, .retrieve willing id⟩
  | retrieving job =>
    exact ⟨(tidy.perm job).resumeAccess .retrieving, .resumeAccess (tidy.placed job rfl)⟩
  | @tracks x persisted before after _ come launched follows =>
    have l := Later.leaving s.bus (before ++ after)
    have dispatched := ordered x (.inr ⟨_, mem_duties_of_launched launched rfl, rfl⟩)
    obtain ⟨tf, lf⟩ := follows.tidy (tidy.later l rfl) (willing.rewrites l.store)
      (dispatched.evolves l.toEvolves)
    exact ⟨tf, l.trans lf⟩
  | watching job follows =>
    have dispatched := ordered _ (.inl ⟨_, job.mem_iff.2 List.mem_cons_self, rfl⟩)
    exact follows.tidy ((tidy.perm job).tail) willing dispatched
  | @removing x a a' others _ job call =>
    have tr := (tidy.perm job).resumeAccess (.removing x)
    have lr := Later.resumeAccess (tidy.placed job rfl)
    rw [call] at tr lr
    exact ⟨tr, lr⟩
  | @removed x a others b₁ r job call =>
    have tr := (tidy.perm job).resumeAccess (.removing x)
    have lr := Later.resumeAccess (tidy.placed job rfl)
    rw [call] at tr lr
    exact ⟨tr.later (.untrack b₁ x) rfl, lr.trans (.untrack b₁ x)⟩

theorem Fresh.tidy (h : s.Fresh) : s.bus.Tidy s.jobs := by
  constructor <;> simp [h.no_jobs]

/-- Along every run the store stays where it is and the calls on it are in order. -/
theorem Runs.tidy (fresh : s₀.Fresh) (willing : s₀.bus.Willing) (h : Runs P s₀ s) :
    s.bus.Tidy s.jobs ∧ Later s₀.bus s.bus := by
  induction h with
  | refl => exact ⟨fresh.tidy, .refl _⟩
  | @step s s' d run step _ ih =>
    obtain ⟨tidy, later⟩ := ih
    have ordered := run.orderly fresh
    obtain ⟨tidy', later'⟩ :=
      (step.event.affair ordered).tidy tidy (willing.rewrites later.store) ordered
    exact ⟨tidy', later.trans later'⟩

theorem Runs.willing (fresh : s₀.Fresh) (willing : s₀.bus.Willing) (h : Runs P s₀ s) :
    s.bus.Willing :=
  willing.rewrites (h.tidy fresh willing).2.store

/-- What the next step of a run comes to. -/
theorem Runs.affair {s' : Traffic} (fresh : s₀.Fresh) (willing : s₀.bus.Willing)
    (h : Runs P s₀ s) (step : s.Step d s') : s.Affair d s'.bus s'.jobs ∧ Later s.bus s'.bus := by
  have ordered := h.orderly fresh
  have affair := step.event.affair ordered
  exact ⟨affair, (affair.tidy (h.tidy fresh willing).1 (h.willing fresh willing) ordered).2⟩

end Traffic
end ServiceBus
