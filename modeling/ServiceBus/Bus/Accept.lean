import ServiceBus.Bus.Basic
import ServiceBus.Turn

/-!
# Accepting, connecting and disconnecting

A component that accepts fetches its exchanges with `Bus.accept`; what ended while it was queued is
stepped over. Connecting a component replaces its earlier connection, and disconnecting closes its
queue: pending accepts end, and what is still queued is failed, at once if no acceptor is in line
and otherwise after the last of them has left (`Launch.closer`).
-/

namespace ServiceBus

structure Accepting where
  component : ComponentId
  queue : Nat
  ticket : Nat
  /-- How long the caller waits in all, in milliseconds, and until when. -/
  limit : Option (Nat × Nat)
  deriving DecidableEq

abbrev AcceptResult := Except RouterError Nat

def Accepting.waits (a : Accepting) : List Wait :=
  [.stopped, .closed a.queue, .item a.queue a.ticket] ++ (a.limit.map fun l => .time l.2).toList

/-- A closer in a queue's line. -/
structure Closing where
  queue : Nat
  ticket : Nat
  deriving DecidableEq

def Closing.waits (c : Closing) : List Wait := [.front c.queue c.ticket]

/-- How many exchanges an acceptor takes out at one turn, so that others get theirs. -/
def stride : Nat := 126

/-- Why exchanges are failed that were queued for a component. -/
def disconnectedCause : String := "component disconnected"

namespace Bus

/-! ### Accepting -/

/-- Takes exchanges out of a queue, so many at most, up to the first that has not ended. -/
def draw (b : Bus) (q : Nat) : Nat → Bus × Option Nat
  | 0 => (b, none)
  | n + 1 =>
    match (b.queue q).take? with
    | none => (b, none)
    | some (x, p) =>
      let b := b.setQueue q p
      if (b.exchange x).status.isTerminal then draw b q n else (b, some x)

def leave (b : Bus) (q ticket : Nat) : Bus := b.setQueue q ((b.queue q).leaveLine ticket)

def resumeAccept (b : Bus) (a : Accepting) : Bus × Turn Accepting AcceptResult :=
  if b.holds .stopped then (b.leave a.queue a.ticket, .ended (.error .shuttingDown))
  else if b.holds (.closed a.queue) then
    (b.leave a.queue a.ticket, .ended (.error (.notConnected a.component)))
  else
    let b := b.setQueue a.queue ((b.queue a.queue).joinLine a.ticket)
    let (b, found) := if (b.queue a.queue).mayTake a.ticket then b.draw a.queue stride else (b, none)
    match found, a.limit with
    | some x, _ => (b.leave a.queue a.ticket, .ended (.ok x))
    | none, some (waited, deadline) =>
      if b.holds (.time deadline) then
        (b.leave a.queue a.ticket, .ended (.error (.timeout none waited)))
      else (b, .waiting a)
    | none, none => (b, .waiting a)

/-- Fetches the next exchange of a component, within a time limit if there is one. -/
def accept (b : Bus) (c : ComponentId) (limit : Option Nat) : Bus × Turn Accepting AcceptResult :=
  match b.components.get? c with
  | some (.pull q) =>
    let (b, ticket) := b.take
    b.resumeAccept ⟨c, q, ticket, limit.map fun ms => (ms, b.now + ms)⟩
  | _ => (b, .ended (.error (.notConnected c)))

def abandonAccept (b : Bus) (a : Accepting) : Bus := b.leave a.queue a.ticket

/-! ### Connecting -/

def failQueued (b : Bus) (q : Nat) : Bus :=
  let p := b.queue q
  let b := b.setQueue q { p with items := [] }
  p.items.foldl (fun b x => b.failQuietly x disconnectedCause) b

def resumeClosing (b : Bus) (c : Closing) : Bus × Turn Closing Unit :=
  let b := b.setQueue c.queue ((b.queue c.queue).joinLine c.ticket)
  if b.holds (.front c.queue c.ticket) then
    ((b.failQueued c.queue).leave c.queue c.ticket, .ended ())
  else (b, .waiting c)

/-- Starts to close a queue whose acceptors have still to leave. -/
def close (b : Bus) (q : Nat) : Bus × Turn Closing Unit :=
  let (b, ticket) := b.take
  b.resumeClosing ⟨q, ticket⟩

/-- Closes a connection that has been replaced or taken away. -/
def closeDelivery (b : Bus) : Delivery → Bus
  | .push _ => b
  | .pull q =>
    let b := b.setQueue q { b.queue q with closed := true }
    if (b.queue q).acceptors.isEmpty then b.failQueued q else b.launch (.closer q)

/-- Connects a component, in place of its earlier connection. -/
def connect (b : Bus) (c : ComponentId) (d : Delivery) : Bus :=
  let old := b.components.get? c
  let b := { b with components := b.components.insert c d }
  match old with
  | some d => b.closeDelivery d
  | none => b

/-- Connects a component that accepts from a queue of its own. -/
def connectQueue (b : Bus) (c : ComponentId) : Bus :=
  let (b, q) := b.addQueue (.new b.settings.queueCapacity)
  b.connect c (.pull q)

/-- Disconnects a component; says whether it was connected. -/
def disconnect (b : Bus) (c : ComponentId) : Bus × Bool :=
  match b.components.get? c with
  | none => (b, false)
  | some d => ({ b with components := b.components.erase c }.closeDelivery d, true)

def disconnectAll (b : Bus) : Bus := b.components.keys.foldl (fun b c => (b.disconnect c).1) b

end Bus

end ServiceBus
