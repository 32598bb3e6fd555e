import ServiceBus.Store.Directory
import ServiceBus.Store.Memory

/-!
# Open stores

A `Store` has a name, an id source and entries somewhere: in memory or in a directory. A
`StoreFactory` opens stores by name and hands out the same one for the same name.
-/

namespace ServiceBus

inductive Backend where
  | memory
  | file
  | clustered
  deriving DecidableEq, Repr, Inhabited

namespace Backend

def display : Backend → String
  | .memory => "memory"
  | .file => "file"
  | .clustered => "clustered"

def diagnostic : Backend → String
  | .memory => "Memory"
  | .file => "File"
  | .clustered => "Clustered"

def names : List (String × Backend) :=
  [("memory", .memory), ("file", .file), ("clustered", .clustered)]

def decode : Decoder Backend := .choice names

end Backend

inductive Shelf where
  | memory (m : Memory)
  | directory (path : String) (features : List StoreFeature)

structure Store where
  name : String
  ids : IdSource
  shelf : Shelf

instance : Inhabited Store := ⟨"", ⟨none⟩, .memory .empty⟩

namespace Store

def inMemory (name : String) : Store := ⟨name, ⟨none⟩, .memory .empty⟩

/-- The store of a directory that is there. A cluster's store names the node in its ids. -/
def inDirectory (path : String) (cluster : Option String) : Store :=
  { name := (Path.name? path).getD "store"
    ids := ⟨cluster⟩
    shelf := .directory path (if cluster.isSome then [.persistent, .clustered] else [.persistent]) }

def features (s : Store) : List StoreFeature :=
  match s.shelf with
  | .memory _ => []
  | .directory _ fs => fs

def hasFeature (s : Store) (name : String) : Bool :=
  (StoreFeature.ofName? name).any fun f => decide (f ∈ s.features)

def size? (s : Store) : Option Nat :=
  match s.shelf with
  | .memory m => some m.entries.size
  | .directory .. => none

def directory? (s : Store) : Option String :=
  match s.shelf with
  | .memory _ => none
  | .directory path _ => some path

def diagnostic (s : Store) : String :=
  match s.shelf with
  | .memory m =>
    "MemoryStore \x7b name: " ++ Quoted.write s.name ++ ", entries: " ++ toString m.entries.size ++
      " \x7d"
  | .directory path fs =>
    "FileStore \x7b name: " ++ Quoted.write s.name ++ ", directory: " ++ Quoted.path path ++
      ", features: [" ++ String.intercalate ", " (fs.map (·.diagnostic)) ++ "], ids: " ++
      s.ids.diagnostic ++ " \x7d"

/-- Starts a call: a store in memory answers at once, one in a directory needs the disk. -/
def start (s : Store) (mark : Nat) (c : StoreCall) :
    Store × Turn DirectoryCall (Except StoreError (Option Json)) :=
  match s.shelf with
  | .memory m =>
    let (m, r) := m.answer c
    ({ s with shelf := .memory m }, .ended r)
  | .directory path _ =>
    (s, .waiting <| match c with
      | .put id data => .creating ⟨path, id, data, mark⟩
      | .get id => .reading path id
      | .remove id => .removing path id)

end Store

/-- Opens stores of one kind by name. -/
structure StoreFactory where
  backend : Backend
  directory : String
  node : String
  /-- The stores opened so far, by number. -/
  stores : Table String Nat

namespace StoreFactory

def diagnostic (f : StoreFactory) : String :=
  "StoreFactory \x7b backend: " ++ f.backend.diagnostic ++ ", directory: " ++
    Quoted.path f.directory ++ ", stores: " ++ toString f.stores.size ++ ", .. \x7d"

def store (f : StoreFactory) (name : String) : Store :=
  match f.backend with
  | .memory => .inMemory name
  | .file => .inDirectory (Path.join f.directory name) none
  | .clustered => .inDirectory (Path.join f.directory name) (some f.node)

/-- Keeps a store under a name, or goes by the one that is kept under it already. -/
def keep (f : StoreFactory) (name : String) (n : Nat) : StoreFactory × Nat :=
  let n := (f.stores.get? name).getD n
  ({ f with stores := f.stores.insert name n }, n)

end StoreFactory

end ServiceBus
