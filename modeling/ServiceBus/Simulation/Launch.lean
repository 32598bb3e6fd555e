import ServiceBus.Config.Read
import ServiceBus.Simulation.Schedule

/-!
# Starting a simulation

Either a bus by itself, set up piece by piece, or a container launched with a configuration, whose
store is opened by its own factory.
-/

namespace ServiceBus.Simulation

/-- How a bus is set up by itself. -/
structure Setup where
  /-- The directory that files are kept below. -/
  home : String
  strategy : Strategy
  persistAll : Bool
  syncTimeout : Nat
  queueCapacity : Nat
  store : Option StoreChoice

/-- The name of the store that exchanges in flight are kept in. -/
def mainStore : String := "main"

/-- The files before anything has happened; the home directory may hold a plain file. -/
def initialFiles (home : String) (blocker : Bool) : Tree :=
  let t := (Tree.empty.makeDirectories home).1
  if blocker then t.insert (Path.parts (Path.join home "blocker")) (.file []) else t

/-- What a simulation draws for random picks. -/
def draws : Nat → Nat := id

def initialBus (strategy : Strategy) (persistAll : Bool) (syncTimeout queueCapacity : Nat)
    (home : String) (blocker : Bool) : Bus :=
  { Bus.new strategy draws
      { persistAll, syncTimeout, queueCapacity := max 1 queueCapacity, store := none } with
    files := initialFiles home blocker }

def withMainStore (b : Bus) (s : Store) : Except StoreError (Bus × Nat) := do
  let files ← match s.directory? with
    | none => .ok b.files
    | some d =>
      match b.files.makeDirectories d with
      | (files, .ok ()) => .ok files
      | (_, .error e) => .error (.io (.disk e))
  let (b, n) := { b with files }.addStore s
  .ok ({ b with settings := { b.settings with store := some n } }, n)

def start (u : Setup) : Except StoreError Simulation := do
  let b := initialBus u.strategy u.persistAll u.syncTimeout u.queueCapacity u.home false
  match u.store with
  | none => .ok (ofBus b u.home)
  | some c =>
    let (b, n) ← withMainStore b (ofChoice u.home c)
    .ok { ofBus b u.home with stores := Table.empty.insert mainStore n }

def launch (c : Config) (home : String) (blocker : Bool) : Except StoreError Simulation := do
  let b := initialBus c.strategy c.persistExchanges c.timeouts.syncSend c.queueCapacity home blocker
  let (b, n) ← withMainStore b (c.factory.store c.storeName)
  let factory := { c.factory with stores := Table.empty.insert c.storeName n }
  .ok { ofBus b home with container := some (c, factory), stores := Table.empty.insert mainStore n }

end ServiceBus.Simulation
