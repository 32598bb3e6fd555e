import ServiceBus.Bus.Error
import ServiceBus.Bus.Queue
import ServiceBus.Bus.Selector
import ServiceBus.Exchange.Snapshot
import ServiceBus.Registry.Lookup
import ServiceBus.Store.Open

/-!
# The state of a bus

A `Bus` is everything that calls on it read and change: the clock, the registry, the exchanges by
number, the connected components and their queues, what is in flight, the stores and the files.
Calls that wait are not part of it; they say by a `Wait` what they wait for, and `Bus.holds` tells
whether that has come.
-/

namespace ServiceBus

/-- How exchanges reach a component. -/
inductive Delivery where
  /-- The bus runs a processor. -/
  | push (processor : Nat)
  /-- The component accepts from a queue. -/
  | pull (queue : Nat)
  deriving DecidableEq, Repr

structure Settings where
  /-- Whether every exchange is persisted, and not only those that ask for it. -/
  persistAll : Bool
  /-- How long a synchronous send waits, in milliseconds. -/
  syncTimeout : Nat
  queueCapacity : Nat
  /-- The store of exchanges in flight. -/
  store : Option Nat
  deriving DecidableEq, Repr, Inhabited

/-- How a processor came to its end. -/
inductive Outcome where
  | returned
  /-- With an error, in words. -/
  | refused (reason : String)
  | panicked (message : String)
  deriving DecidableEq, Repr

/-- Work that a call leaves for others to do. -/
inductive Launch where
  /-- Follows a delivered exchange to its end. -/
  | tracker (x : Nat) (persisted : Bool)
  /-- Runs a processor on an exchange; `awaited` when the sender waits for its outcome. -/
  | processor (run : Nat) (processor : Nat) (x : Nat) (awaited : Bool)
  /-- Fails what is left in a queue once its acceptors are gone. -/
  | closer (queue : Nat)
  deriving DecidableEq, Repr

/-- What one can wait for on an exchange. -/
inductive Goal where
  /-- Its end. -/
  | completion
  /-- Its end, or the reply's coming back. -/
  | reply
  deriving DecidableEq, Repr

def Goal.reached : Goal → Progress → Bool
  | .completion, p => p.isComplete
  | .reply, p => p.isReplied

inductive Wait where
  | time (t : Nat)
  /-- An exchange's coming to a goal; any progress beyond what has been seen wakes. -/
  | exchange (x : Nat) (g : Goal) (seen : Progress)
  /-- The outcome of a processor's run. -/
  | outcome (run : Nat)
  | stopped
  /-- The closing of a queue. -/
  | closed (queue : Nat)
  /-- A slot in a queue. -/
  | slot (queue ticket : Nat)
  /-- Being first in a queue's line of acceptors. -/
  | front (queue ticket : Nat)
  /-- Being first in line while there is something to take. -/
  | item (queue ticket : Nat)
  /-- Nothing in flight. -/
  | idle
  /-- The disk's attention. -/
  | disk (ticket : Nat)
  deriving DecidableEq, Repr

structure Bus where
  /-- Milliseconds since the start. -/
  now : Nat
  registry : Registry
  exchanges : Array Exchange
  settings : Settings
  selector : Selector
  components : Table ComponentId Delivery
  queues : List PullQueue
  /-- Exchanges delivered and not yet ended, by id. -/
  inFlight : Table String Nat
  /-- Whether new sends are refused. -/
  closing : Bool
  stopped : Bool
  stores : List Store
  files : Tree
  /-- How often the disk has been asked for attention. -/
  asked : Nat
  /-- How often the disk has given it. -/
  served : Nat
  /-- Outcomes of processors that somebody waits for. -/
  outcomes : Table Nat Outcome
  /-- Work that has not been taken up yet. -/
  launched : List Launch
  /-- A number that has not been used. -/
  fresh : Nat

namespace Bus

def new (strategy : Strategy) (draws : Nat → Nat) (settings : Settings) : Bus :=
  { now := 0, registry := .empty, exchanges := #[], settings, selector := .new strategy draws
    components := .empty, queues := [], inFlight := .empty, closing := false, stopped := false
    stores := [], files := .empty, asked := 0, served := 0, outcomes := .empty, launched := []
    fresh := 1 }

instance : Inhabited Bus := ⟨new .first default default⟩

/-! ### Parts -/

def exchange (b : Bus) (x : Nat) : Exchange := b.exchanges[x]?.getD default

/-- Adds an exchange; the result's number is how many there were. -/
def addExchange (b : Bus) (e : Exchange) : Bus × Nat :=
  ({ b with exchanges := b.exchanges.push e }, b.exchanges.size)

def change (b : Bus) (x : Nat) (c : Change) : Bus × Except ExchangeError Unit :=
  let (e, r) := (b.exchange x).change c
  ({ b with exchanges := b.exchanges.setIfInBounds x e }, r)

theorem change_snd (b : Bus) (x : Nat) (c : Change) :
    (b.change x c).2 = ((b.exchange x).change c).2 := rfl

theorem exchange_set (b : Bus) {x : Nat} (h : x < b.exchanges.size) (y : Nat) (e : Exchange) :
    { b with exchanges := b.exchanges.setIfInBounds x e }.exchange y =
      if y = x then e else b.exchange y := by
  by_cases hy : y = x
  · subst hy
    simp [exchange, h]
  · simp [exchange, hy, Array.getElem?_setIfInBounds_ne (Ne.symm hy)]

theorem exchange_change (b : Bus) {x : Nat} (h : x < b.exchanges.size) {c : Change} (y : Nat) :
    (b.change x c).1.exchange y = if y = x then ((b.exchange x).change c).1 else b.exchange y :=
  b.exchange_set h y _

/-- Fails an exchange unless it has ended. -/
def failQuietly (b : Bus) (x : Nat) (cause : String) : Bus := (b.change x (.fail cause)).1

def queue (b : Bus) (q : Nat) : PullQueue := b.queues[q]?.getD default

/-- Adds a queue; the result's number is how many there were. -/
def addQueue (b : Bus) (p : PullQueue) : Bus × Nat :=
  ({ b with queues := b.queues ++ [p] }, b.queues.length)

def setQueue (b : Bus) (q : Nat) (p : PullQueue) : Bus := { b with queues := b.queues.set q p }

def store (b : Bus) (s : Nat) : Store := b.stores[s]?.getD default

/-- Adds a store; the result's number is how many there were. -/
def addStore (b : Bus) (s : Store) : Bus × Nat :=
  ({ b with stores := b.stores ++ [s] }, b.stores.length)

/-- Takes a number that has not been used. -/
def take (b : Bus) : Bus × Nat := ({ b with fresh := b.fresh + 1 }, b.fresh)

def launch (b : Bus) (l : Launch) : Bus := { b with launched := b.launched ++ [l] }

def askDisk (b : Bus) : Bus × Nat := ({ b with asked := b.asked + 1 }, b.asked)

/-! ### Waiting -/

/-- The progress of an exchange that everybody can see. -/
def progress (b : Bus) (x : Nat) : Progress := (b.exchange x).published

def reached (b : Bus) (x : Nat) (g : Goal) : Bool := g.reached (b.progress x)

/-- Whether what is waited for has come, or may have. -/
def holds (b : Bus) : Wait → Bool
  | .time t => decide (t ≤ b.now)
  | .exchange x g seen => b.reached x g || decide (b.progress x ≠ seen)
  | .outcome run => b.outcomes.contains run
  | .stopped => b.stopped
  | .closed q => (b.queue q).closed
  | .slot q ticket => decide (ticket ∈ (b.queue q).granted)
  | .front q ticket => (b.queue q).mayTake ticket
  | .item q ticket => (b.queue q).mayTake ticket && !(b.queue q).items.isEmpty
  | .idle => b.inFlight.isEmpty
  | .disk ticket => decide (ticket < b.served)

/-! ### Diagnostics -/

def diagnostic (b : Bus) : String :=
  "Router \x7b strategy: " ++ b.selector.strategy.diagnostic ++
    ", components: " ++ toString b.components.size ++
    ", in_flight: " ++ toString b.inFlight.size ++
    ", closing: " ++ toString b.closing ++ ", .. \x7d"

end Bus

end ServiceBus
