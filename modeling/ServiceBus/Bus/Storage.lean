import ServiceBus.Bus.Basic
import ServiceBus.Turn

/-!
# Calls on stores

`Bus.callStore` starts a call on a store; a store in memory answers at once. A store in a directory
needs the disk, step by step: an `Access` waits for the disk's attention, then the operation takes
effect as a whole. `Bus.openStore` opens a store, after the disk has made its directory.
-/

namespace ServiceBus

/-- What a store answers; only a call for an entry has a value to answer with. -/
abbrev StoreAnswer := Except StoreError (Option Json)

/-- A call on a store in a directory that waits for the disk. -/
structure Access where
  ticket : Nat
  call : DirectoryCall
  deriving DecidableEq

/-- The opening of a store whose directory the disk has to make. -/
structure Opening where
  ticket : Nat
  directory : String
  store : Store

namespace Bus

/-- Asks for the disk's attention on behalf of a call that is not over. -/
def await (b : Bus) : Turn DirectoryCall StoreAnswer → Bus × Turn Access StoreAnswer
  | .ended r => (b, .ended r)
  | .waiting c =>
    let (b, ticket) := b.askDisk
    (b, .waiting ⟨ticket, c⟩)

def callStore (b : Bus) (s : Nat) (c : StoreCall) : Bus × Turn Access StoreAnswer :=
  let (b, mark) := b.take
  let (store, t) := (b.store s).start mark c
  { b with stores := b.stores.set s store }.await t

/-- Goes on with a call once it has the disk's attention. -/
def resumeAccess (b : Bus) (a : Access) : Bus × Turn Access StoreAnswer :=
  if b.holds (.disk a.ticket) then
    let (files, r) := b.files.perform a.call.operation
    { b with files }.await (a.call.resume r)
  else (b, .waiting a)

/-- Opens a store, in a directory if it needs one. -/
def openStore (b : Bus) (s : Store) : Bus × Turn Opening (Except StoreError Nat) :=
  match s.directory? with
  | none =>
    let (b, n) := b.addStore s
    (b, .ended (.ok n))
  | some directory =>
    let (b, ticket) := b.askDisk
    (b, .waiting ⟨ticket, directory, s⟩)

/-- Goes on with an opening once it has the disk's attention. -/
def resumeOpening (b : Bus) (o : Opening) : Bus × Turn Opening (Except StoreError Nat) :=
  if b.holds (.disk o.ticket) then
    let (files, r) := b.files.perform (.makeDirectories o.directory)
    match r with
    | .ok _ =>
      let (b, n) := { b with files }.addStore o.store
      (b, .ended (.ok n))
    | .error e => ({ b with files }, .ended (.error (.io (.disk e))))
  else (b, .waiting o)

/-! ### Persisted exchanges -/

/-- Whether an exchange is kept in the store while it is in flight. -/
def persists (b : Bus) (x : Nat) : Bool :=
  (b.settings.persistAll || (b.exchange x).persistent) && b.settings.store.isSome

/-- Starts to write down an exchange as it stands. -/
def persist (b : Bus) (x : Nat) : Bus × Turn Access StoreAnswer :=
  match b.settings.store with
  | none => (b, .ended (.ok none))
  | some s =>
    let e := b.exchange x
    b.callStore s (.put e.id e.snapshot.toJson.canonical)

theorem store_of_persists {b : Bus} {x : Nat} (h : b.persists x = true) :
    ∃ s, b.settings.store = some s :=
  Option.isSome_iff_exists.1 (Bool.and_eq_true_iff.1 h).2

theorem persist_of_store {b : Bus} {s : Nat} (h : b.settings.store = some s) (x : Nat) :
    b.persist x =
      b.callStore s (.put (b.exchange x).id (b.exchange x).snapshot.toJson.canonical) := by
  rw [persist, h]

/-- The exchange that a stored value records, found again against the registry. -/
def restored (b : Bus) (id : String) : StoreAnswer → Except RouterError Exchange
  | .error e => .error (.store e)
  | .ok none => .error (.store (.notFound id))
  | .ok (some v) =>
    match Decoder.value Snapshot.decode v with
    | none => .error (.store (.serialization "not a snapshot"))
    | some s =>
      if s.version = Snapshot.currentVersion then .ok (s.restore b.registry)
      else .error (.store (.unsupportedVersion id s.version))

def retrieve (b : Bus) (id : String) : Bus × Turn Access StoreAnswer :=
  match b.settings.store with
  | none => (b, .ended (.error (.notFound id)))
  | some s => b.callStore s (.get id)

end Bus

end ServiceBus
