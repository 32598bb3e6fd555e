import ServiceBus.Proofs.Files.Destination
import ServiceBus.Proofs.Store.Served

/-!
# A factory and what it has opened

A `Depot` is a factory with the stores that it has opened and the disk that they are on; what is
asked of it, to open a store of a name or to answer a call on one, has the disk to itself. Every name
keeps the number of its store (`Depot.get?_step`), and no two names have the same store
(`Depot.Sound`), though two stores may have one directory. A call stays inside of its directory
(`DirectoryCall.alike_serve`) and does the same in two trees that differ only in another one
(`Tree.Alike.serve`).
-/

namespace ServiceBus

/-! ### One call in two trees -/

namespace DirectoryCall
variable {t t' : Tree} {gone : Location} {c c' : DirectoryCall}

theorem directory_begin (c : StoreCall) (path : String) (mark : Nat) :
    (c.begin path mark).directory = path := by
  cases c <;> rfl

theorem directory_of_resume {a : Except DiskError Document} (h : c.resume a = .waiting c') :
    c'.directory = c.directory := by
  revert h
  fun_cases resume c a <;> intro h <;> cases h <;> rfl

/-- Whatever a call does, it does directly inside of its directory. -/
theorem alike_perform (c : DirectoryCall) (t : Tree) :
    t.Alike (Path.destination c.directory) (t.perform c.operation).1 := by
  have touches := t.touches_perform c.makesDirectories_operation
  refine ⟨touches.directories, fun l outside => touches.find?_eq l fun p hp located => ?_⟩
  have inside : ∃ n, PlainName n ∧ p = filePath c.directory n := by
    obtain ⟨w, writing, rfl⟩ | ⟨-, rfl⟩ := touched_operation hp
    · rw [directory_of_writing writing]
      exact ⟨_, plainName_temporaryName w.id w.mark, rfl⟩
    · exact ⟨_, plainName_recordName c.id, rfl⟩
  obtain ⟨n, plain, rfl⟩ := inside
  obtain ⟨here, walked, -, rfl⟩ := Tree.locate_filePath plain located
  exact outside n (Tree.walk_eq_ok walked ▸ rfl)

theorem alike_serve (c : DirectoryCall) (t : Tree) :
    t.Alike (Path.destination c.directory) (c.serve t).tree := by
  fun_induction serve t c with
  | case1 t c => exact alike_perform c t
  | case2 t c p c' goes s ih =>
    rw [directory_of_resume goes] at ih
    exact (alike_perform c t).trans ih

end DirectoryCall

namespace Tree.Alike
variable {t t' : Tree} {gone : Location} {c : DirectoryCall}

theorem perform (h : Alike gone t t') (reaches : t.Reaches c.directory)
    (apart : Path.destination c.directory ≠ gone) :
    (t'.perform c.operation).2 = (t.perform c.operation).2 ∧
      Alike gone (t.perform c.operation).1 (t'.perform c.operation).1 := by
  have temporary (w : Writing) := h.sameAt_inside reaches apart
    (plainName_temporaryName w.id w.mark)
  have record := h.sameAt_inside reaches apart (plainName_recordName c.id)
  cases c with
  | creating w =>
    rw [DirectoryCall.operation, Tree.perform, Tree.perform]
    exact (h.create (temporary w)).settle h
  | filling w =>
    rw [DirectoryCall.operation, Tree.perform, Tree.perform]
    exact (h.write (temporary w) w.content).settle h
  | discarding w =>
    rw [DirectoryCall.operation, Tree.perform, Tree.perform]
    exact (h.remove (temporary w)).settle h
  | removing directory id =>
    rw [DirectoryCall.operation, Tree.perform, Tree.perform]
    exact (h.remove record).settle h
  | syncing | syncingParent => exact ⟨rfl, h⟩
  | openingParent w =>
    exact ⟨congrArg (Except.map fun _ => []) (h.sameAt reaches).openExisting_eq, h⟩
  | reading directory id => exact ⟨record.read_eq, h⟩
  | _ w =>
    rw [DirectoryCall.operation, Tree.perform, Tree.perform]
    exact (h.rename (temporary w) record).settle h

theorem serve (h : Alike gone t t') (reaches : t.Reaches c.directory)
    (apart : Path.destination c.directory ≠ gone) :
    (c.serve t').answer = (c.serve t).answer ∧
      Alike gone (c.serve t).tree (c.serve t').tree := by
  revert t'
  fun_induction DirectoryCall.serve t c with
  | case1 t c p r ended =>
    intro t' h
    obtain ⟨answer, alike⟩ := h.perform reaches apart
    rw [DirectoryCall.serve_of_ended (t := t') (answer.symm ▸ ended)]
    exact ⟨rfl, alike⟩
  | case2 t c p c' goes s ih =>
    intro t' h
    obtain ⟨answer, alike⟩ := h.perform reaches apart
    have directory := DirectoryCall.directory_of_resume goes
    have stays := (DirectoryCall.alike_perform c t).reaches reaches
    rw [DirectoryCall.serve_of_waiting (t := t') (answer.symm ▸ goes)]
    exact ih (directory ▸ stays) (directory ▸ apart) alike

end Tree.Alike

/-! ### Opening stores and calling them -/

namespace Store
variable {s : Store} {t : Tree} {path : String}

/-- Makes the directory of a store, if it needs one. -/
def make (s : Store) (t : Tree) : Tree × Except StoreError Unit :=
  match s.directory? with
  | none => (t, .ok ())
  | some directory =>
    match t.perform (.makeDirectories directory) with
    | (t, .ok _) => (t, .ok ())
    | (t, .error e) => (t, .error (.io (.disk e)))

theorem make_of_memory (h : s.directory? = none) (t : Tree) : s.make t = (t, .ok ()) := by
  rw [make, h]

theorem make_of_directory (h : s.directory? = some path) (t : Tree) :
    s.make t = ((t.perform (.makeDirectories path)).1,
      ((t.perform (.makeDirectories path)).2.map fun _ => ()).mapError fun e => .io (.disk e)) := by
  rw [make, h]
  simp only
  generalize t.perform (.makeDirectories path) = made
  obtain ⟨t, r⟩ := made
  cases r <;> rfl

theorem keeps_make (s : Store) (t : Tree) : t.KeepsDirectories (s.make t).1 := by
  cases h : s.directory? with
  | none =>
    rw [make_of_memory h]
    exact fun _ hl => hl
  | some path =>
    rw [make_of_directory h]
    exact (Tree.furnishes_makeDirectories t path).keeps

theorem made_of_directory (h : s.directory? = some path) (ok : (s.make t).2 = .ok ()) :
    ∃ d, (t.perform (.makeDirectories path)).2 = .ok d ∧
      (s.make t).1 = (t.perform (.makeDirectories path)).1 := by
  rw [make_of_directory h] at ok ⊢
  cases r : (t.perform (.makeDirectories path)).2 with
  | error e => rw [r] at ok; cases ok
  | ok d => exact ⟨d, rfl, rfl⟩

theorem alike_make {t' : Tree} {gone : Location} (h : t.Alike gone t')
    (ok : (s.make t).2 = .ok ()) (ok' : (s.make t').2 = .ok ()) :
    (s.make t).1.Alike gone (s.make t').1 := by
  cases hd : s.directory? with
  | none => rwa [make_of_memory hd, make_of_memory hd]
  | some path =>
    obtain ⟨d, made, e⟩ := made_of_directory hd ok
    obtain ⟨d', made', e'⟩ := made_of_directory hd ok'
    rw [e, e']
    exact h.makeDirectories made made'

/-- A store is in memory or in a directory. -/
theorem shelf_cases (s : Store) :
    (∃ m, s.shelf = .memory m ∧ s.directory? = none) ∨
    ∃ path features, s.shelf = .directory path features ∧ s.directory? = some path := by
  unfold directory?
  cases h : s.shelf with
  | memory m => exact .inl ⟨m, rfl, rfl⟩
  | directory path features => exact .inr ⟨path, features, rfl, rfl⟩

end Store

namespace Bus
variable {b b' b'' : Bus} {s : Store} {o : Opening}

theorem openStore_of_memory (h : s.directory? = none) (b : Bus) :
    b.openStore s = ({ b with stores := b.stores ++ [s] }, .ended (.ok b.stores.length)) := by
  rw [Bus.openStore, h]
  rfl

/-- Once it has the disk's attention, the bus makes the directory that the store needs. -/
theorem resumeOpening_of_holds
    (asked : b.openStore s = (b', .waiting o)) (granted : b''.holds (.disk o.ticket) = true) :
    b''.resumeOpening o =
      match s.make b''.files with
      | (files, .ok ()) =>
        ({ b'' with files, stores := b''.stores ++ [s] }, .ended (.ok b''.stores.length))
      | (files, .error e) => ({ b'' with files }, .ended (.error e)) := by
  unfold Bus.openStore at asked
  split at asked
  · cases asked
  · next directory hd =>
    cases asked
    rw [Bus.resumeOpening, if_pos granted, Store.make_of_directory hd]
    simp only
    cases (b''.files.perform (.makeDirectories directory)).2 <;> rfl

end Bus

/-! ### Depots -/

/-- A factory, the stores that it has opened, by number, and the files. -/
structure Depot where
  factory : StoreFactory
  stores : List Store
  files : Tree

/-- What is asked of a depot. -/
inductive Use where
  | opens (name : String)
  | calls (n mark : Nat) (c : StoreCall)

inductive Reply where
  | opened (r : Except StoreError Nat)
  | answered (a : StoreAnswer)

namespace Depot

/-- A new factory has opened no stores. -/
def fresh (backend : Backend) (directory node : String) (files : Tree) : Depot :=
  ⟨⟨backend, directory, node, .empty⟩, [], files⟩

def store (d : Depot) (n : Nat) : Store := d.stores[n]?.getD default

/-- The number of the store that the factory has of a name, or opens now. -/
def openStore (d : Depot) (name : String) : Depot × Except StoreError Nat :=
  match d.factory.stores.get? name with
  | some n => (d, .ok n)
  | none =>
    match (d.factory.store name).make d.files with
    | (files, .ok ()) =>
      let (factory, n) := d.factory.keep name d.stores.length
      (⟨factory, d.stores ++ [d.factory.store name], files⟩, .ok n)
    | (files, .error e) => ({ d with files }, .error e)

def call (d : Depot) (n mark : Nat) (c : StoreCall) : Depot × StoreAnswer :=
  let s := d.store n
  let served := s.serve mark c d.files
  ({ d with stores := d.stores.set n (s.start mark c).1, files := served.tree }, served.answer)

def step (d : Depot) : Use → Depot × Reply
  | .opens name => ((d.openStore name).1, .opened (d.openStore name).2)
  | .calls n mark c => ((d.call n mark c).1, .answered (d.call n mark c).2)

def after (d : Depot) (us : List Use) : Depot := us.foldl (fun d u => (d.step u).1) d

def replies (d : Depot) : List Use → List (Use × Reply)
  | [] => []
  | u :: us => (u, (d.step u).2) :: replies (d.step u).1 us

variable {d d' : Depot} {name path : String} {n mark : Nat} {c : StoreCall}

/-! ### Opening -/

/-- What comes of opening a store by name. -/
inductive Opens (d : Depot) (name : String) : Depot × Except StoreError Nat → Prop
  | keeps {n : Nat} (kept : d.factory.stores.get? name = some n) : Opens d name (d, .ok n)
  | makes {files : Tree} (new : d.factory.stores.get? name = none)
    (made : (d.factory.store name).make d.files = (files, .ok ())) :
    Opens d name (⟨{ d.factory with stores := d.factory.stores.insert name d.stores.length },
      d.stores ++ [d.factory.store name], files⟩, .ok d.stores.length)
  | fails {files : Tree} {e : StoreError} (new : d.factory.stores.get? name = none)
    (failed : (d.factory.store name).make d.files = (files, .error e)) :
    Opens d name ({ d with files }, .error e)

theorem opens (d : Depot) (name : String) : Opens d name (d.openStore name) := by
  unfold openStore
  cases kept : d.factory.stores.get? name with
  | some n => exact .keeps kept
  | none =>
    simp only
    cases made : (d.factory.store name).make d.files with
    | mk files r =>
      cases r with
      | ok u =>
        simp only [StoreFactory.keep, kept, Option.getD_none]
        exact .makes kept made
      | error e => exact .fails kept made

/-- The names that have been opened keep their numbers. -/
theorem get?_step {u : Use} (h : d.factory.stores.get? name = some n) :
    (d.step u).1.factory.stores.get? name = some n := by
  cases u with
  | calls => exact h
  | opens other =>
    show (d.openStore other).1.factory.stores.get? name = some n
    have opens := d.opens other
    generalize d.openStore other = r at opens
    cases opens with
    | keeps | fails => exact h
    | makes new =>
      refine (Table.get?_insert_of_ne _ ?_ _).trans h
      rintro rfl
      rw [new] at h
      cases h

theorem get?_after {us : List Use} (h : d.factory.stores.get? name = some n) :
    (d.after us).factory.stores.get? name = some n := by
  induction us generalizing d with
  | nil => exact h
  | cons u us ih => exact ih (get?_step h)

theorem get?_openStore (h : (d.openStore name).2 = .ok n) :
    (d.openStore name).1.factory.stores.get? name = some n := by
  have opens := d.opens name
  generalize d.openStore name = r at opens h
  cases opens with
  | keeps kept => cases h; exact kept
  | makes => cases h; exact Table.get?_insert_self _ _ _
  | fails => cases h

theorem store_step (d : Depot) (u : Use) (name : String) :
    (d.step u).1.factory.store name = d.factory.store name := by
  cases u with
  | calls => rfl
  | opens other =>
    show (d.openStore other).1.factory.store name = _
    have opens := d.opens other
    generalize d.openStore other = r at opens
    cases opens <;> rfl

theorem store_after (d : Depot) (us : List Use) (name : String) :
    (d.after us).factory.store name = d.factory.store name := by
  induction us generalizing d with
  | nil => rfl
  | cons u us ih => exact (ih _).trans (store_step d u name)

/-! ### Calls -/

theorem call_of_memory {m : Memory} (h : (d.store n).shelf = .memory m) :
    d.call n mark c = ({ d with
      stores := d.stores.set n { d.store n with shelf := .memory (m.answer c).1 } },
      (m.answer c).2) := by
  simp only [call, Store.serve, Store.start_of_memory h]

theorem call_of_directory {features : List StoreFeature}
    (h : (d.store n).shelf = .directory path features) :
    d.call n mark c = ({ d with files := ((c.begin path mark).serve d.files).tree },
      ((c.begin path mark).serve d.files).answer) := by
  have same : d.stores.set n (d.store n) = d.stores := by
    unfold store
    rcases Nat.lt_or_ge n d.stores.length with lt | ge
    · rw [List.getElem?_eq_getElem lt]
      exact List.set_getElem_self lt
    · exact List.set_eq_of_length_le ge
  rw [call, Store.serve_of_directory h, Store.start_of_directory h]
  simp only [same]

/-! ### Where the stores are -/

theorem directory?_call (d : Depot) (k mark : Nat) (c : StoreCall) (n : Nat) :
    ((d.call k mark c).1.store n).directory? = (d.store n).directory? := by
  obtain ⟨m, shelf, inMemory⟩ | ⟨p, features, shelf, -⟩ := (d.store k).shelf_cases
  · rw [call_of_memory shelf]
    by_cases e : k = n
    · subst e
      rw [inMemory]
      rcases Nat.lt_or_ge k d.stores.length with lt | ge
      · simp only [store, List.getElem?_set_self lt]
        rfl
      · simp only [store, List.set_eq_of_length_le ge, List.getElem?_eq_none ge]
        rfl
    · simp only [store, List.getElem?_set_ne e]
  · rw [call_of_directory shelf]
    rfl

theorem store_concat (factory : StoreFactory) (stores : List Store) (s : Store) (files : Tree)
    (n : Nat) : (⟨factory, stores ++ [s], files⟩ : Depot).store n =
      if n = stores.length then s else (⟨factory, stores, files⟩ : Depot).store n := by
  unfold store
  simp only
  split
  · next e => rw [e, List.getElem?_concat_length, Option.getD_some]
  · next ne =>
    rcases Nat.lt_or_gt_of_ne ne with lt | gt
    · rw [List.getElem?_append_left lt]
    · rw [List.getElem?_eq_none (by simpa using Nat.succ_le_of_lt gt), List.getElem?_eq_none (Nat.le_of_lt gt)]

theorem lt_of_directory? (h : (d.store n).directory? = some path) : n < d.stores.length := by
  by_contra ge
  rw [store, List.getElem?_eq_none (Nat.le_of_not_lt ge)] at h
  cases h

/-- A store with a directory stays where it is. -/
theorem directory?_step {u : Use} (h : (d.store n).directory? = some path) :
    ((d.step u).1.store n).directory? = some path := by
  cases u with
  | calls k mark c => exact (d.directory?_call k mark c n).trans h
  | opens name =>
    show ((d.openStore name).1.store n).directory? = some path
    have opens := d.opens name
    generalize d.openStore name = r at opens
    cases opens with
    | keeps | fails => exact h
    | makes =>
      rw [store_concat, if_neg (Nat.ne_of_lt (lt_of_directory? h))]
      exact h

theorem directory?_after {us : List Use} (h : (d.store n).directory? = some path) :
    ((d.after us).store n).directory? = some path := by
  induction us generalizing d with
  | nil => exact h
  | cons u us ih => exact ih (directory?_step h)

/-- Every name has a store of its own, and the directories are there. -/
structure Sound (d : Depot) : Prop where
  lt_length : ∀ name n, d.factory.stores.get? name = some n → n < d.stores.length
  directory?_eq : ∀ name n, d.factory.stores.get? name = some n →
    (d.store n).directory? = (d.factory.store name).directory?
  distinct : ∀ name name' n, d.factory.stores.get? name = some n →
    d.factory.stores.get? name' = some n → name = name'
  reaches : ∀ n path, (d.store n).directory? = some path → d.files.Reaches path

theorem sound_fresh (backend : Backend) (directory node : String) (files : Tree) :
    (fresh backend directory node files).Sound :=
  ⟨nofun, nofun, nofun, nofun⟩

theorem get?_insert_cases {stores : Table String Nat} {other : String} {k : Nat}
    (h : (stores.insert name k).get? other = some n) :
    other = name ∧ n = k ∨ stores.get? other = some n := by
  rw [Table.get?_insert] at h
  split at h
  · next e => cases h; exact .inl ⟨e, rfl⟩
  · exact .inr h

namespace Sound
variable (h : d.Sound)
include h

theorem call (n mark : Nat) (c : StoreCall) : (d.call n mark c).1.Sound where
  lt_length name k hk := by
    rw [Depot.call, List.length_set]
    exact h.lt_length name k hk
  directory?_eq name k hk := (d.directory?_call n mark c k).trans (h.directory?_eq name k hk)
  distinct := h.distinct
  reaches k path hd := by
    rw [directory?_call] at hd
    have reaches := h.reaches k path hd
    obtain ⟨m, shelf, -⟩ | ⟨p, features, shelf, -⟩ := (d.store n).shelf_cases
    · rw [call_of_memory shelf]
      exact reaches
    · rw [call_of_directory shelf]
      exact (DirectoryCall.alike_serve _ _).reaches reaches

/-- A name that is new gets the number that is next. -/
theorem makes {files : Tree}
    (made : (d.factory.store name).make d.files = (files, .ok ())) :
    Sound ⟨{ d.factory with stores := d.factory.stores.insert name d.stores.length },
      d.stores ++ [d.factory.store name], files⟩ where
  lt_length other n hn := by
    rw [List.length_append, List.length_singleton]
    obtain ⟨-, rfl⟩ | old := get?_insert_cases hn
    · exact Nat.lt_succ_self _
    · exact Nat.lt_succ_of_lt (h.lt_length other n old)
  directory?_eq other n hn := by
    rw [store_concat]
    obtain ⟨rfl, rfl⟩ | old := get?_insert_cases hn
    · rw [if_pos rfl]
      rfl
    · rw [if_neg (Nat.ne_of_lt (h.lt_length other n old))]
      exact h.directory?_eq other n old
  distinct one two n h₁ h₂ := by
    obtain ⟨rfl, rfl⟩ | old₁ := get?_insert_cases h₁ <;>
      obtain ⟨rfl, e⟩ | old₂ := get?_insert_cases h₂
    · rfl
    · exact absurd (h.lt_length two _ old₂) (Nat.lt_irrefl _)
    · exact absurd (e ▸ h.lt_length one _ old₁) (Nat.lt_irrefl _)
    · exact h.distinct one two n old₁ old₂
  reaches n path hd := by
    have same : files = ((d.factory.store name).make d.files).1 := by rw [made]
    rw [store_concat] at hd
    subst same
    split at hd
    · obtain ⟨_, accepted, e⟩ := Store.made_of_directory hd (by rw [made])
      rw [e]
      exact Tree.reaches_makeDirectories accepted
    · exact (Store.keeps_make _ d.files).reaches (h.reaches n path hd)

theorem step (u : Use) : (d.step u).1.Sound := by
  cases u with
  | calls n mark c => exact h.call n mark c
  | opens name =>
    show (d.openStore name).1.Sound
    have opens := d.opens name
    generalize d.openStore name = r at opens
    cases opens with
    | keeps => exact h
    | makes _ made => exact h.makes made
    | @fails files e _ failed =>
      have same : files = ((d.factory.store name).make d.files).1 := by rw [failed]
      refine ⟨h.lt_length, h.directory?_eq, h.distinct, fun n path hd => ?_⟩
      rw [same]
      exact (Store.keeps_make _ d.files).reaches (h.reaches n path hd)

omit h in
theorem after (h : d.Sound) (us : List Use) : (d.after us).Sound := by
  induction us generalizing d with
  | nil => exact h
  | cons u us ih => exact ih (h.step u)

end Sound
end Depot
end ServiceBus
