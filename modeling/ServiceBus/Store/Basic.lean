import ServiceBus.Files.Tree
import ServiceBus.Text.Quoted

/-!
# Stores: what they promise and how they fail

A store keeps JSON values under ids. `StoreFeature` names what a store may promise beyond that,
`StoreError` why a call fails, `IdSource` how the ids of new entries look.
-/

namespace ServiceBus

inductive StoreFeature where
  /-- Entries outlive the process. -/
  | persistent
  /-- Entries written on one node are seen on the others. -/
  | clustered
  /-- Writes can be part of a transaction. -/
  | transactional
  deriving DecidableEq, Repr, Inhabited

namespace StoreFeature

def name : StoreFeature → String
  | .persistent => "PERSISTENT"
  | .clustered => "CLUSTERED"
  | .transactional => "TRANSACTIONAL"

def diagnostic : StoreFeature → String
  | .persistent => "Persistent"
  | .clustered => "Clustered"
  | .transactional => "Transactional"

def all : List StoreFeature := [.persistent, .clustered, .transactional]

/-- The feature of a canonical name. -/
def ofName? (s : String) : Option StoreFeature := all.find? fun f => f.name = s

end StoreFeature

inductive StoreCause where
  | disk (e : DiskError)
  | other (message : String)
  deriving DecidableEq, Repr

def StoreCause.message : StoreCause → String
  | .disk e => e.message
  | .other m => m

inductive StoreError where
  /-- An entry could not be written; readers see nothing of it. -/
  | write (id : String) (cause : StoreCause)
  | notFound (id : String)
  /-- Something failed outside of writing. -/
  | io (cause : StoreCause)
  /-- What is stored is not what was asked for. -/
  | serialization (reason : String)
  | unsupportedVersion (id : String) (version : Nat)
  deriving DecidableEq, Repr

namespace StoreError

def message : StoreError → String
  | .write id cause => "Failed to write entry '" ++ id ++ "': " ++ cause.message
  | .notFound id => "No entry found for '" ++ id ++ "'"
  | .io cause => "Store I/O error: " ++ cause.message
  | .serialization reason => "Store serialization error: " ++ reason
  | .unsupportedVersion id v =>
    "Entry '" ++ id ++ "' has unsupported record version " ++ toString v

def cause? : StoreError → Option StoreCause
  | .write _ cause | .io cause => some cause
  | _ => none

def isNotFound : StoreError → Bool
  | .notFound _ => true
  | _ => false

def chain (e : StoreError) : List String := e.message :: (e.cause?.map (·.message)).toList

end StoreError

/-! ### Ids of new entries -/

/-- The variable part of a generated id: 26 digits that grow with the number. -/
def serialTail (n : Nat) : String := String.ofList (Hex.digits 26 n)

/-- Where a store takes the ids of new entries from. -/
structure IdSource where
  /-- The node that new ids name. -/
  node : Option String
  deriving DecidableEq, Repr, Inhabited

namespace IdSource

/-- What stands in front of the variable part. -/
def stem (s : IdSource) : String :=
  match s.node with
  | some n => n ++ ".entry_"
  | none => "entry_"

def id (s : IdSource) (n : Nat) : String := s.stem ++ serialTail n

def diagnostic (s : IdSource) : String :=
  let node := match s.node with
    | some n => "Some(" ++ Quoted.write n ++ ")"
    | none => "None"
  "IdGenerator \x7b node_id: " ++ node ++ " \x7d"

end IdSource

end ServiceBus
