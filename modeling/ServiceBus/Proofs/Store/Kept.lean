import ServiceBus.Proofs.Bus.Evolution
import ServiceBus.Proofs.Files.Tree

/-!
# What calls do to what a store keeps

`Bus.kept? b id` is what the store of exchanges has under `id`: a value in memory, or the content of
a record file. A store in memory changes it as soon as it is called. In a directory only two disk
operations do, the renaming at the end of a write and a removal (`resumes`), and each for one id
(`Rewrites`).
-/

namespace ServiceBus

/-! ### Record files -/

namespace DirectoryCall

/-- The directory of the store that has been called. -/
def directory : DirectoryCall → String
  | .creating w | .filling w | .syncing w | .renaming w | .openingParent w | .syncingParent w
  | .discarding w _ => w.directory
  | .reading directory _ | .removing directory _ => directory

/-- The entry on its way into the directory. -/
def writing? : DirectoryCall → Option Writing
  | .creating w | .filling w | .syncing w | .renaming w | .openingParent w | .syncingParent w
  | .discarding w _ => some w
  | .reading .. | .removing .. => none

/-- The id of the entry that the call is for. -/
def id : DirectoryCall → String
  | .creating w | .filling w | .syncing w | .renaming w | .openingParent w | .syncingParent w
  | .discarding w _ => w.id
  | .reading _ id | .removing _ id => id

/-- Whether the operation that the call needs next changes record files. -/
def isEffective : DirectoryCall → Bool
  | .renaming _ | .removing .. => true
  | _ => false

/-- How a write goes on from one operation to the next; renaming is left out. -/
inductive Next : DirectoryCall → DirectoryCall → Prop
  | fill (w : Writing) : Next (.creating w) (.filling w)
  | sync (w : Writing) : Next (.filling w) (.syncing w)
  | rename (w : Writing) : Next (.syncing w) (.renaming w)
  | syncParent (w : Writing) : Next (.openingParent w) (.syncingParent w)
  | discard {c : DirectoryCall} {w : Writing} (e : DiskError) (writing : c.writing? = some w) :
    Next c (.discarding w e)

theorem Next.writing?_eq {c c' : DirectoryCall} (h : c.Next c') : c'.writing? = c.writing? := by
  cases h with
  | discard e writing => exact writing.symm
  | _ => rfl

theorem directory_of_writing {c : DirectoryCall} {w : Writing} (h : c.writing? = some w) :
    c.directory = w.directory := by
  cases c <;> cases h <;> rfl

theorem id_of_writing {c : DirectoryCall} {w : Writing} (h : c.writing? = some w) :
    c.id = w.id := by
  cases c <;> cases h <;> rfl

/-- A call changes only its temporary file and, at its end, the record file of its id. -/
theorem touched_operation {c : DirectoryCall} {p : String} (h : p ∈ c.operation.touched) :
    (∃ w, c.writing? = some w ∧ p = w.temporary) ∨
    c.isEffective = true ∧ p = filePath c.directory (recordName c.id) := by
  cases c with
  | creating w | filling w | discarding w =>
    cases List.mem_singleton.1 h
    exact .inl ⟨w, rfl, rfl⟩
  | syncing | openingParent | syncingParent | reading => cases h
  | removing directory id =>
    cases List.mem_singleton.1 h
    exact .inr ⟨rfl, rfl⟩
  | _ w =>
    have either : p = w.temporary ∨ p = w.record := by
      simpa [operation, DiskOperation.touched] using h
    exact either.imp (fun e => ⟨w, rfl, e⟩) fun e => ⟨rfl, e⟩

theorem makesDirectories_operation (c : DirectoryCall) : c.operation.makesDirectories = false := by
  cases c <;> rfl

end DirectoryCall

namespace Tree
variable {t : Tree}

/-- What the record file of an id holds. -/
def record? (t : Tree) (directory id : String) : Option Document :=
  t.content? (filePath directory (recordName id))

/-- Operations that change no record file of the id leave it alone. -/
theorem record?_perform (t : Tree) {c : DirectoryCall} {id : String}
    (other : c.id = id → c.isEffective = false) (directory : String) :
    (t.perform c.operation).1.record? directory id = t.record? directory id := by
  refine content?_perform_of_ne c.makesDirectories_operation (plainName_recordName id)
    fun p hp => ?_
  obtain ⟨w, -, rfl⟩ | ⟨effective, rfl⟩ := DirectoryCall.touched_operation hp
  · exact ⟨_, _, plainName_temporaryName w.id w.mark, temporaryName_ne_recordName _ _ _, rfl⟩
  · refine ⟨_, _, plainName_recordName c.id, fun e => ?_, rfl⟩
    rw [other (recordName_injective e)] at effective
    cases effective

theorem record?_remove (t : Tree) (directory i id : String) :
    (t.perform (DirectoryCall.removing directory i).operation).1.record? directory id =
      if id = i then none else t.record? directory id := by
  split
  · next e =>
    subst e
    exact content?_perform_remove t _
  · next ne => exact t.record?_perform (fun e => absurd e.symm ne) directory

theorem record?_rename {w : Writing} {d : Document}
    (h : (t.perform (DirectoryCall.renaming w).operation).2 = .ok d) (id : String) :
    (t.perform (DirectoryCall.renaming w).operation).1.record? w.directory id =
      if id = w.id then t.content? w.temporary else t.record? w.directory id := by
  split
  · next e =>
    subst e
    exact content?_perform_rename h
  · next ne => exact t.record?_perform (fun e => absurd e.symm ne) w.directory

/-- A call leaves the temporary files of other writes alone. -/
theorem content?_temporary (t : Tree) {c : DirectoryCall} {w : Writing}
    (ne : ∀ v, c.writing? = some v → v.mark ≠ w.mark) :
    (t.perform c.operation).1.content? w.temporary = t.content? w.temporary := by
  refine content?_perform_of_ne c.makesDirectories_operation (plainName_temporaryName w.id w.mark)
    fun p hp => ?_
  obtain ⟨v, hv, rfl⟩ | ⟨-, rfl⟩ := DirectoryCall.touched_operation hp
  · exact ⟨_, _, plainName_temporaryName v.id v.mark,
      fun e => ne v hv (temporaryName_injective e).2, rfl⟩
  · exact ⟨_, _, plainName_recordName c.id, (temporaryName_ne_recordName _ _ _).symm, rfl⟩

end Tree

/-! ### What a bus keeps -/

/-- An entry as a store has it. -/
inductive Kept where
  | value (v : Json)
  | record (d : Document)

namespace Bus
variable {b b' b'' : Bus} {n x : Nat} {a : Access} {f : String → Option Kept}

/-- The directory of the store of exchanges, if it is in one. -/
def place? (b : Bus) : Option String := b.settings.store.bind fun n => (b.store n).directory?

/-- The memory of the store of exchanges; empty if it is not in memory. -/
def memory (b : Bus) : Memory :=
  match b.settings.store with
  | none => .empty
  | some n =>
    match (b.store n).shelf with
    | .memory m => m
    | .directory .. => .empty

/-- What the store of exchanges keeps under an id. -/
def kept? (b : Bus) (id : String) : Option Kept :=
  match b.place? with
  | some directory => (b.files.record? directory id).map .record
  | none => (b.memory.entries.get? id).map .value

/-- How the store of exchanges keeps a value under an id. -/
def form (b : Bus) (id : String) (v : Json) : Kept :=
  match b.place? with
  | some _ => .record (Record.write ⟨Record.currentVersion, id, v⟩)
  | none => .value v

theorem kept?_of_place {directory : String} (h : b.place? = some directory) (id : String) :
    b.kept? id = (b.files.record? directory id).map .record := by
  unfold kept?
  rw [h]

theorem kept?_of_memory (h : b.place? = none) (id : String) :
    b.kept? id = (b.memory.entries.get? id).map .value := by
  unfold kept?
  rw [h]

theorem form_of_place {directory : String} (h : b.place? = some directory) (id : String)
    (v : Json) : b.form id v = .record (Record.write ⟨Record.currentVersion, id, v⟩) := by
  unfold form
  rw [h]

theorem form_of_memory (h : b.place? = none) (id : String) (v : Json) : b.form id v = .value v := by
  unfold form
  rw [h]

/-- From `b` to `b'` the store has stayed the same, but for what it keeps, which is now `f`. -/
structure Rewrites (b : Bus) (f : String → Option Kept) (b' : Bus) : Prop where
  settings_eq : b'.settings = b.settings
  length_eq : b'.stores.length = b.stores.length
  place_eq : b'.place? = b.place?
  refused_eq : b'.memory.refused = b.memory.refused
  kept_eq : ∀ id, b'.kept? id = f id

namespace Rewrites

theorem of_eq (hs : b'.settings = b.settings) (ht : b'.stores = b.stores)
    (hf : b'.files = b.files) :
    Rewrites b b.kept? b' := by
  have hstore (n : Nat) : b'.store n = b.store n := by
    unfold store
    rw [ht]
  have hp : b'.place? = b.place? := by simp only [place?, hs, hstore]
  have hm : b'.memory = b.memory := by simp only [memory, hs, hstore]
  exact ⟨hs, congrArg _ ht, hp, congrArg _ hm, fun id => by simp only [kept?, hp, hm, hf]⟩

theorem refl (b : Bus) : Rewrites b b.kept? b := of_eq rfl rfl rfl

theorem of_ledger (h : b'.ledger = b.ledger) : Rewrites b b.kept? b' :=
  of_eq (congrArg Ledger.settings h) (congrArg Ledger.stores h) (congrArg Ledger.files h)

theorem trans {g : String → Option Kept} (h : Rewrites b f b') (k : Rewrites b' g b'') :
    Rewrites b g b'' where
  settings_eq := k.settings_eq.trans h.settings_eq
  length_eq := k.length_eq.trans h.length_eq
  place_eq := k.place_eq.trans h.place_eq
  refused_eq := k.refused_eq.trans h.refused_eq
  kept_eq := k.kept_eq

theorem congr {g : String → Option Kept} (h : Rewrites b f b') (e : ∀ id, f id = g id) :
    Rewrites b g b' := funext e ▸ h

/-- Then nothing more has changed. -/
theorem trans_same (h : Rewrites b f b') (k : Rewrites b' b'.kept? b'') : Rewrites b f b'' :=
  (h.trans k).congr h.kept_eq

theorem form_eq (h : Rewrites b f b') (id : String) (v : Json) : b'.form id v = b.form id v := by
  unfold form
  rw [h.place_eq]

theorem await (b : Bus) (t : Turn DirectoryCall StoreAnswer) :
    Rewrites b b.kept? (b.await t).1 := by
  cases t <;> exact of_eq rfl rfl rfl

end Rewrites

/-- Entries with another one, or none, under an id. -/
def entered (f : String → Option Kept) (id : String) (k : Option Kept) (i : String) : Option Kept :=
  if i = id then k else f i

@[simp] theorem entered_self (f : String → Option Kept) (id : String) (k : Option Kept) :
    entered f id k id = k := if_pos rfl

theorem entered_of_ne {f : String → Option Kept} {id i : String} (h : i ≠ id) (k : Option Kept) :
    entered f id k i = f i := if_neg h

/-! ### Calling the store -/

/-- The store of exchanges is there, and it refuses no calls. -/
structure Willing (b : Bus) : Prop where
  there : ∀ n, b.settings.store = some n → n < b.stores.length
  refuses_none : b.memory.refused = .empty

theorem Willing.rewrites (h : b.Willing) (hr : Rewrites b f b') : b'.Willing where
  there n hn := hr.length_eq ▸ h.there n (hr.settings_eq ▸ hn)
  refuses_none := hr.refused_eq.trans h.refuses_none

end Bus

/-- The id of the entry that the call is for. -/
def StoreCall.id : StoreCall → String
  | .put id _ | .get id | .remove id => id

/-- Where the call begins in a directory. -/
def StoreCall.begin (directory : String) (mark : Nat) : StoreCall → DirectoryCall
  | .put id data => .creating ⟨directory, id, data, mark⟩
  | .get id => .reading directory id
  | .remove id => .removing directory id

/-- What the call makes of what is kept, in this form. -/
def StoreCall.effect (form : String → Json → Kept) (f : String → Option Kept) :
    StoreCall → String → Option Kept
  | .put id data => Bus.entered f id (some (form id data))
  | .get _ => f
  | .remove id => Bus.entered f id none

theorem Store.start_of_directory {s : Store} {path : String} {features : List StoreFeature}
    (h : s.shelf = .directory path features) (mark : Nat) (c : StoreCall) :
    s.start mark c = (s, .waiting (c.begin path mark)) := by
  unfold start
  rw [h]
  cases c <;> rfl

theorem Store.start_of_memory {s : Store} {m : Memory} (h : s.shelf = .memory m) (mark : Nat)
    (c : StoreCall) :
    s.start mark c = ({ s with shelf := .memory (m.answer c).1 }, .ended (m.answer c).2) := by
  unfold start
  rw [h]

namespace Memory
variable {m : Memory}

theorem refused_answer (m : Memory) (c : StoreCall) : (m.answer c).1.refused = m.refused := by
  unfold answer
  repeat' split
  all_goals rfl

/-- Memory that refuses nothing does as it is told. -/
theorem answer_ok (h : m.refused = .empty) {c : StoreCall} (hc : ∀ id, c ≠ .get id) :
    (m.answer c).2 = .ok none := by
  cases c with
  | put | remove => simp [answer, h]
  | get id => exact absurd rfl (hc id)

theorem get?_answer (h : m.refused = .empty) (c : StoreCall) (i : String) :
    (m.answer c).1.entries.get? i = match c with
      | .put id data => if i = id then some data else m.entries.get? i
      | .get _ => m.entries.get? i
      | .remove id => if i = id then none else m.entries.get? i := by
  cases c with
  | put id data => simp [answer, h, Table.get?_insert]
  | remove id => simp [answer, h, Table.get?_erase]
  | get id =>
    simp only [answer, h, Table.get?_empty]
    split <;> rfl

end Memory

namespace Bus
variable {b b' b'' : Bus} {n x : Nat} {a : Access} {f : String → Option Kept}

/-- The bus once a mark has been taken and a call on a store has left this of it. -/
def called (b : Bus) (n : Nat) (s : Store) : Bus :=
  { b with fresh := b.fresh + 1, stores := b.stores.set n s }

theorem callStore_eq (b : Bus) (n : Nat) (c : StoreCall) :
    b.callStore n c =
      (b.called n ((b.store n).start b.fresh c).1).await ((b.store n).start b.fresh c).2 := rfl

theorem store_called (h : n < b.stores.length) (s : Store) : (b.called n s).store n = s := by
  simp [store, called, h]

theorem set_store (b : Bus) (n : Nat) : b.stores.set n (b.store n) = b.stores := by
  by_cases h : n < b.stores.length
  · have hs : b.store n = b.stores[n] := by simp [store, h]
    rw [hs, List.set_getElem_self]
  · exact List.set_eq_of_length_le (Nat.le_of_not_lt h)

/-- A call on the store of exchanges asks for the disk, or memory answers it at once. -/
inductive Begins (b : Bus) (c : StoreCall) : Bus → Turn Access StoreAnswer → Prop
  | asks {b' : Bus} {directory : String} (place : b.place? = some directory)
    (same : Rewrites b b.kept? b') (files_eq : b'.files = b.files)
    (asked_eq : b'.asked = b.asked + 1) (fresh_eq : b'.fresh = b.fresh + 1) :
    Begins b c b' (.waiting ⟨b.asked, c.begin directory b.fresh⟩)
  | answered {b' : Bus} {r : StoreAnswer} (memory : b.place? = none)
    (rewrites : Rewrites b (c.effect b.form b.kept?) b') (ok : (∀ id, c ≠ .get id) → r = .ok none) :
    Begins b c b' (.ended r)

theorem begins (willing : b.Willing) (hs : b.settings.store = some n) (c : StoreCall) :
    Begins b c (b.callStore n c).1 (b.callStore n c).2 := by
  have hn := willing.there n hs
  have hp : b.place? = (b.store n).directory? := by simp [place?, hs]
  rw [callStore_eq]
  cases hshelf : (b.store n).shelf with
  | directory path features =>
    have hplace : b.place? = some path := by rw [hp, Store.directory?, hshelf]
    rw [Store.start_of_directory hshelf]
    exact .asks hplace (.of_eq rfl (b.set_store n) rfl) rfl rfl rfl
  | memory m =>
    have hplace : b.place? = none := by rw [hp, Store.directory?, hshelf]
    have hm : b.memory = m := by simp [memory, hs, hshelf]
    rw [Store.start_of_memory hshelf]
    generalize hb : b.called n { b.store n with shelf := .memory (m.answer c).1 } = b'
    have hsettings : b'.settings = b.settings := by rw [← hb]; rfl
    have hstore : b'.store n = { b.store n with shelf := .memory (m.answer c).1 } :=
      hb ▸ store_called hn _
    have hplace' : b'.place? = none := by simp [place?, hsettings, hs, hstore, Store.directory?]
    have hmemory : b'.memory = (m.answer c).1 := by simp [memory, hsettings, hs, hstore]
    have refused := hm ▸ willing.refuses_none
    refine .answered hplace ⟨hsettings, ?_, hplace'.trans hplace.symm, ?_, fun i => ?_⟩
      (Memory.answer_ok refused)
    · rw [← hb]
      exact List.length_set
    · rw [await, hmemory, hm, Memory.refused_answer]
    · rw [await, kept?_of_memory hplace', hmemory, Memory.get?_answer refused]
      have hkept := kept?_of_memory hplace
      rw [hm] at hkept
      cases c with
      | put id data =>
        simp only [StoreCall.effect, entered, form_of_memory hplace, hkept]
        split <;> rfl
      | get id => exact (hkept i).symm
      | remove id =>
        simp only [StoreCall.effect, entered, hkept]
        split <;> rfl

/-- Writing down an exchange is a call on the store. -/
theorem begins_persist (willing : b.Willing) (hp : b.persists x = true) :
    Begins b (.put (b.exchange x).id (b.exchange x).snapshot.toJson.canonical) (b.persist x).1
      (b.persist x).2 := by
  obtain ⟨n, hn⟩ := store_of_persists hp
  rw [persist_of_store hn]
  exact begins willing hn _

/-! ### Going on with a call -/

/-- What becomes of a call in the store's directory: it waits for the disk's attention, or goes on,
puts a record in place, removes one, or ends. -/
inductive Goes (b : Bus) (a : Access) : Bus → Turn Access StoreAnswer → Prop
  | waits : Goes b a b (.waiting a)
  | next {b' : Bus} {c : DirectoryCall} (next : a.call.Next c) (same : Rewrites b b.kept? b') :
    Goes b a b' (.waiting ⟨b.asked, c⟩)
  | renames {b' : Bus} {w : Writing} (call : a.call = .renaming w)
    (rewrites : Rewrites b
      (entered b.kept? w.id ((b.files.content? w.temporary).map .record)) b') :
    Goes b a b' (.waiting ⟨b.asked, .openingParent w⟩)
  | removes {b' : Bus} {directory id : String} {r : StoreAnswer}
    (call : a.call = .removing directory id) (rewrites : Rewrites b (entered b.kept? id none) b') :
    Goes b a b' (.ended r)
  | reads {b' : Bus} {directory id : String} {r : StoreAnswer}
    (call : a.call = .reading directory id) (same : Rewrites b b.kept? b') : Goes b a b' (.ended r)
  | written {b' : Bus} {w : Writing} (call : a.call = .syncingParent w)
    (same : Rewrites b b.kept? b') : Goes b a b' (.ended (.ok none))
  | failed {b' : Bus} {w : Writing} {e : DiskError} (call : a.call = .discarding w e)
    (same : Rewrites b b.kept? b') : Goes b a b' (.ended (.error (.write w.id (.disk e))))

/-- The bus after an operation on its files. -/
def performed (b : Bus) (o : DiskOperation) : Bus := { b with files := (b.files.perform o).1 }

theorem rewrites_performed {c : DirectoryCall} (hp : b.place? = some c.directory)
    {g : String → Option Document}
    (h : ∀ id, (b.files.perform c.operation).1.record? c.directory id = g id) :
    Rewrites b (fun id => (g id).map .record) (b.performed c.operation) := by
  refine ⟨rfl, rfl, rfl, rfl, fun id => ?_⟩
  have hp' : (b.performed c.operation).place? = some c.directory := hp
  rw [kept?_of_place hp']
  exact congrArg _ (h id)

theorem rewrites_of_unchanged {c : DirectoryCall} (hp : b.place? = some c.directory)
    (h : ∀ id, (b.files.perform c.operation).1.record? c.directory id =
      b.files.record? c.directory id) : Rewrites b b.kept? (b.performed c.operation) :=
  (rewrites_performed hp h).congr fun i => (kept?_of_place hp i).symm

theorem rewrites_removing {directory : String} (hp : b.place? = some directory) (id : String) :
    Rewrites b (entered b.kept? id none)
      (b.performed (DirectoryCall.removing directory id).operation) := by
  have removed := b.files.record?_remove directory id
  refine (rewrites_performed (c := .removing directory id) hp removed).congr fun i => ?_
  rw [entered, kept?_of_place hp]
  split <;> rfl

theorem rewrites_renaming {w : Writing} {d : Document} (hp : b.place? = some w.directory)
    (hr : (b.files.perform (DirectoryCall.renaming w).operation).2 = .ok d) :
    Rewrites b (entered b.kept? w.id ((b.files.content? w.temporary).map .record))
      (b.performed (DirectoryCall.renaming w).operation) := by
  refine (rewrites_performed (c := .renaming w) hp (Tree.record?_rename hr)).congr fun i => ?_
  rw [entered, kept?_of_place hp]
  split <;> rfl

theorem goes (hp : b.place? = some a.call.directory) :
    Goes b a (b.resumeAccess a).1 (b.resumeAccess a).2 := by
  unfold resumeAccess
  split
  case isFalse => exact .waits
  obtain ⟨ticket, c⟩ := a
  have same (hc : c.isEffective = false) : Rewrites b b.kept? (b.performed c.operation) :=
    rewrites_of_unchanged hp fun _ => b.files.record?_perform (fun _ => hc) _
  have asks {c' : DirectoryCall} (next : c.Next c')
      (same : Rewrites b b.kept? (b.performed c.operation)) :
      Goes b ⟨ticket, c⟩ ((b.performed c.operation).await (.waiting c')).1
        ((b.performed c.operation).await (.waiting c')).2 :=
    .next next (same.trans_same (.await _ (.waiting c')))
  have puts {w : Writing} (call : c = .renaming w)
      (rewrites : Rewrites b (entered b.kept? w.id ((b.files.content? w.temporary).map .record))
        (b.performed c.operation)) :
      Goes b ⟨ticket, c⟩ ((b.performed c.operation).await (.waiting (.openingParent w))).1
        ((b.performed c.operation).await (.waiting (.openingParent w))).2 :=
    .renames call (rewrites.trans_same (.await _ (.waiting (.openingParent w))))
  show Goes b _ ((b.performed c.operation).await (c.resume (b.files.perform c.operation).2)).1
    ((b.performed c.operation).await (c.resume (b.files.perform c.operation).2)).2
  -- from here on only the disk's answer decides
  generalize hr : (b.files.perform c.operation).2 = r
  cases c with
  | creating w =>
    cases r with
    | ok _ => exact asks (.fill w) (same rfl)
    | error e => exact asks (.discard e rfl) (same rfl)
  | filling w =>
    cases r with
    | ok _ => exact asks (.sync w) (same rfl)
    | error e => exact asks (.discard e rfl) (same rfl)
  | syncing w =>
    cases r with
    | ok _ => exact asks (.rename w) (same rfl)
    | error e => exact asks (.discard e rfl) (same rfl)
  | openingParent w =>
    cases r with
    | ok _ => exact asks (.syncParent w) (same rfl)
    | error e => exact asks (.discard e rfl) (same rfl)
  | syncingParent w =>
    cases r with
    | ok _ => exact .written rfl (same rfl)
    | error e => exact asks (.discard e rfl) (same rfl)
  | discarding w e => cases r <;> exact .failed rfl (same rfl)
  | reading directory id =>
    cases r with
    | ok d => exact .reads rfl (same rfl)
    | error e => cases e <;> exact .reads rfl (same rfl)
  | removing directory id =>
    cases r with
    | ok d => exact .removes rfl (rewrites_removing hp id)
    | error e => cases e <;> exact .removes rfl (rewrites_removing hp id)
  | _ w =>
    cases r with
    | ok d => exact puts rfl (rewrites_renaming hp hr)
    | error e =>
      have unchanged (i : String) : (b.files.perform (DirectoryCall.renaming w).operation).1.record?
          w.directory i = b.files.record? w.directory i :=
        congrArg (·.record? w.directory i) (Tree.perform_of_error rfl hr)
      exact asks (.discard e rfl) (rewrites_of_unchanged hp unchanged)

/-! ### Other entries -/

theorem kept?_callStore (willing : b.Willing) (hs : b.settings.store = some n) {c : StoreCall}
    {i : String} (ne : i ≠ c.id) : (b.callStore n c).1.kept? i = b.kept? i := by
  have hb := begins willing hs c
  generalize b.callStore n c = r at hb
  obtain ⟨b', t⟩ := r
  cases hb with
  | asks _ same => exact same.kept_eq i
  | answered _ rewrites =>
    rw [rewrites.kept_eq i]
    cases c with
    | put id data => exact entered_of_ne ne _
    | get id => rfl
    | remove id => exact entered_of_ne ne _

theorem kept?_persist (willing : b.Willing) {i : String} (ne : i ≠ (b.exchange x).id) :
    (b.persist x).1.kept? i = b.kept? i := by
  unfold persist
  split
  · rfl
  · next hs => exact kept?_callStore willing hs ne

theorem kept?_retrieve (willing : b.Willing) (id i : String) :
    (b.retrieve id).1.kept? i = b.kept? i := by
  unfold retrieve
  split
  · rfl
  · next n hs =>
    have hb := begins willing hs (.get id)
    generalize b.callStore n (.get id) = r at hb
    obtain ⟨b', t⟩ := r
    cases hb with
    | asks _ same => exact same.kept_eq i
    | answered _ rewrites => exact rewrites.kept_eq i

theorem kept?_resumeAccess (hp : b.place? = some a.call.directory) {i : String}
    (ne : i ≠ a.call.id) : (b.resumeAccess a).1.kept? i = b.kept? i := by
  have hg := goes hp
  generalize b.resumeAccess a = r at hg
  obtain ⟨b', t⟩ := r
  cases hg with
  | waits => rfl
  | next _ same | reads _ same | written _ same | failed _ same => exact same.kept_eq i
  | renames call rewrites | removes call rewrites =>
    rw [call] at ne
    exact (rewrites.kept_eq i).trans (entered_of_ne ne _)

/-- Only a renaming or a removal changes what is kept. -/
theorem kept?_resumeAccess_of_not_effective (hp : b.place? = some a.call.directory)
    (he : a.call.isEffective = false) (i : String) : (b.resumeAccess a).1.kept? i = b.kept? i := by
  have hg := goes hp
  generalize b.resumeAccess a = r at hg
  obtain ⟨b', t⟩ := r
  cases hg with
  | waits => rfl
  | next _ same | reads _ same | written _ same | failed _ same => exact same.kept_eq i
  | renames call | removes call => rw [call] at he; cases he

/-- What has been removed is gone. -/
theorem kept?_of_removed {directory id : String} {r : StoreAnswer}
    (hp : b.place? = some a.call.directory) (ha : a.call = .removing directory id)
    (call : b.resumeAccess a = (b', .ended r)) : b'.kept? id = none := by
  have hg := goes hp
  rw [call] at hg
  cases hg with
  | removes hc rewrites =>
    rw [ha] at hc
    cases hc
    exact (rewrites.kept_eq id).trans (entered_self _ _ _)
  | reads hc | written hc | failed hc => rw [ha] at hc; cases hc

theorem kept?_of_no_store (h : b.settings.store = none) (i : String) : b.kept? i = none := by
  have hp : b.place? = none := by rw [place?, h]; rfl
  rw [kept?_of_memory hp, memory, h]
  rfl

end Bus
end ServiceBus
