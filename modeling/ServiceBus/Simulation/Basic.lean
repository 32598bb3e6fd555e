import ServiceBus.Simulation.Action

/-!
# A simulated container

A `Simulation` is a bus together with those who use it: the scripts of its processors, the parties
whose turn it is, those who wait, and the names that they have given to things. Ids that are made up
along the way are remembered with the name they were made for.
-/

namespace ServiceBus

/-- What becomes of a store's answer. -/
inductive Purpose where
  /-- Nothing. -/
  | done
  /-- It confirms a new entry. -/
  | created (stem : String)
  /-- It is read. -/
  | reading (r : Reading)
  /-- It is restored to an exchange, which gets a name. -/
  | retrieved (id name : String)
  deriving DecidableEq

inductive Opened where
  /-- It gets a name. -/
  | named (name : String)
  /-- A factory keeps it, too. -/
  | made (factory store name : String)
  /-- The container's factory keeps it, too. -/
  | contained (store name : String)
  deriving DecidableEq

inductive Pending where
  | sending (c : Sending)
  | accepting (c : Accepting) (name : Option String)
  | watching (c : Watching)
  | draining (c : Draining)
  | sleeping (deadline : Nat)
  | accessing (c : Access) (p : Purpose)
  | opening (c : Opening) (o : Opened)
  | shuttingDown (c : ShuttingDown)
  /-- In the middle of a round, with the rounds to come and how many have failed. -/
  | round (c : Pending) (rest : List (Step Action)) (failed : Nat)
  /-- After a round that was answered, until a deadline. -/
  | pausing (deadline : Nat) (rest : List (Step Action)) (failed : Nat) (last : Result)

def Pending.waits : Pending → List Wait
  | .sending c => c.waits
  | .accepting c _ => c.waits
  | .watching c => c.waits
  | .draining c => c.waits
  | .sleeping t => [.time t]
  | .accessing c _ => [.disk c.ticket]
  | .opening c _ => [.disk c.ticket]
  | .shuttingDown c => c.waits
  | .round c _ _ => c.waits
  | .pausing t _ _ _ => [.time t]

/-- How long somebody waits for an answer, in milliseconds. -/
def patience : Nat := 86400000

/-- Who follows a script. -/
inductive Party where
  /-- The caller, who waits for an answer until a deadline. -/
  | caller (deadline : Nat)
  /-- Somebody in the background, by number, who waits for an answer until a deadline and was
  started by a processor on its run on an exchange, or by the caller. -/
  | background (n deadline : Nat) (x : Option Nat)
  /-- A processor of a component on its run on an exchange. -/
  | processor (c : ComponentId) (run x : Nat) (awaited : Bool)
  deriving DecidableEq

namespace Party

/-- The exchange that the name `$` stands for. -/
def subject : Party → Option Nat
  | .caller _ => none
  | .background _ _ x => x
  | .processor _ _ x _ => some x

/-- Until when the party waits for an answer. A processor's script may take for ever. -/
def deadline? : Party → Option Nat
  | .caller t => some t
  | .background _ t _ => some t
  | .processor .. => none

end Party

inductive Task where
  | tracker (t : Tracking)
  | closer (c : Closing)
  /-- In the middle of a step, with the rest of the script before it. -/
  | party (p : Party) (s : Step Action) (c : Pending) (rest : Script)

/-- What the party waits for. Nobody waits for an answer past a deadline. -/
def Task.waits : Task → List Wait
  | .tracker t => t.waits
  | .closer c => c.waits
  | .party p _ c _ => c.waits ++ p.deadline?.toList.map .time

/-- Somebody whose turn it is. -/
inductive Turned where
  | resumed (t : Task)
  | launched (l : Launch)
  | started (p : Party) (script : Script)

def Turned.isCaller : Turned → Bool
  | .resumed (.party (.caller _) _ _ _) => true
  | _ => false

structure Simulation where
  bus : Bus
  /-- The directory that files are kept below. -/
  home : String
  /-- The configuration of a launched container, and its stores. -/
  container : Option (Config × StoreFactory)
  /-- The processors by number. -/
  scripts : List (ComponentId × Script)
  /-- The turns to come, first one first. -/
  ready : List Turned
  /-- Those who wait, longest first. -/
  waiting : List Task
  /-- What the caller has been answered. -/
  answer : Option Result
  /-- What those in the background have been answered. -/
  answers : Table Nat Result
  logs : Table ComponentId (List (String × String × Result))
  /-- The names of exchanges. -/
  exchanges : Table String Nat
  /-- The names of entries, with their ids. -/
  entries : Table String String
  stores : Table String Nat
  factories : Table String StoreFactory
  /-- The names of subscribers, with the number of events they know. -/
  subscribers : Table String Nat
  /-- The names of those in the background. -/
  background : Table String Nat
  /-- The variable parts of ids made up so far, each with the name it was made for. -/
  madeUp : List (String × String)

namespace Simulation

def ofBus (b : Bus) (home : String) : Simulation :=
  { bus := b, home, container := none, scripts := [], ready := [], waiting := [], answer := none
    answers := .empty, logs := .empty, exchanges := .empty, entries := .empty, stores := .empty
    factories := .empty, subscribers := .empty, background := .empty, madeUp := [] }

/-- Where stores are that have no other place. -/
def baseOf (home : String) : String := Path.join home "base"

/-- Where a directory is while something else is in its place. -/
def parked (s : Simulation) : Location := Path.parts (Path.join s.home "parked")

/-! ### Names -/

/-- The exchange of a name; `$` is the party's own. -/
def exchange? (s : Simulation) (p : Party) (name : String) : Except Failure Nat :=
  match if name = "$" then p.subject else s.exchanges.get? name with
  | some x => .ok x
  | none => .error .unknown

def namesOf (s : Simulation) (x : Nat) : List String :=
  sortBy id ((s.exchanges.entries.filter fun e => e.2 = x).map (·.1))

def nameExchange (s : Simulation) (name : String) (x : Nat) : Simulation :=
  { s with exchanges := s.exchanges.insert name x }

def addExchange (s : Simulation) (name : String) (e : Exchange) : Simulation :=
  let (bus, x) := s.bus.addExchange e
  { s with bus }.nameExchange name x

def store? (s : Simulation) (name : String) : Except Failure Nat :=
  match s.stores.get? name with
  | some n => .ok n
  | none => .error .unknown

def entryId? (s : Simulation) (p : Party) : EntryId → Except Failure String
  | .literal id => .ok id
  | .behind name =>
    match s.exchange? p name, s.entries.get? name with
    | .ok x, _ => .ok (s.bus.exchange x).id
    | .error _, some id => .ok id
    | .error e, none => .error e

/-- Makes up the variable part of an id for something that gets a name. -/
def makeUp (s : Simulation) (name : String) : Simulation × String :=
  let (bus, n) := s.bus.take
  let tail := serialTail n
  ({ s with bus, madeUp := s.madeUp ++ [(tail, name)] }, tail)

end Simulation

end ServiceBus
