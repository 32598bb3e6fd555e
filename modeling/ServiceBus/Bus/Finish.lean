import ServiceBus.Bus.Accept
import ServiceBus.Bus.Storage

/-!
# Following exchanges to their end

A `Tracking` waits for the end of a delivered exchange, then removes what was written down of it
and counts it out of what is in flight. `Bus.drain` waits until nothing is in flight, `Bus.watch`
for one exchange. `Bus.shutdown` ends the work of a whole container.
-/

namespace ServiceBus

inductive Tracking where
  | watching (x : Nat) (persisted : Bool) (seen : Progress)
  | removing (x : Nat) (access : Access)

def Tracking.waits : Tracking → List Wait
  | .watching x _ seen => [.exchange x .completion seen]
  | .removing _ a => [.disk a.ticket]

/-- One who waits on an exchange, perhaps not for ever. -/
structure Watching where
  x : Nat
  goal : Goal
  deadline : Option Nat
  seen : Progress
  deriving DecidableEq

def Watching.waits (w : Watching) : List Wait :=
  .exchange w.x w.goal w.seen :: (w.deadline.map .time).toList

structure Draining where
  deadline : Nat
  deriving DecidableEq

def Draining.waits (d : Draining) : List Wait := [.idle, .time d.deadline]

inductive ShuttingDown where
  /-- For what is in flight to end by itself. -/
  | draining (d : Draining)
  /-- For what has been failed to leave. -/
  | settling (d : Draining)
  deriving DecidableEq

def ShuttingDown.waits : ShuttingDown → List Wait
  | .draining d | .settling d => d.waits

/-- Why exchanges are failed when a container shuts down. -/
def shutdownCause : String := "container shutting down"

/-- How long failed exchanges get to leave, in milliseconds. -/
def settleGrace : Nat := 500

namespace Bus

/-! ### Tracking -/

def untrack (b : Bus) (x : Nat) : Bus :=
  { b with inFlight := b.inFlight.erase (b.exchange x).id }

/-- Goes on once the store has been asked to remove an exchange. -/
def removed (b : Bus) (x : Nat) : Turn Access StoreAnswer → Bus × Turn Tracking Unit
  | .waiting a => (b, .waiting (.removing x a))
  | .ended _ => (b.untrack x, .ended ())

def follow (b : Bus) (x : Nat) (persisted : Bool) : Bus × Turn Tracking Unit :=
  if b.reached x .completion then
    match b.settings.store with
    | some s =>
      if persisted then
        let (b, t) := b.callStore s (.remove (b.exchange x).id)
        b.removed x t
      else b.removed x (.ended (.ok none))
    | none => b.removed x (.ended (.ok none))
  else (b, .waiting (.watching x persisted (b.progress x)))

def resumeTracking (b : Bus) : Tracking → Bus × Turn Tracking Unit
  | .watching x persisted _ => b.follow x persisted
  | .removing x a =>
    let (b, t) := b.resumeAccess a
    b.removed x t

/-! ### Waiting on one exchange or on all -/

def resumeWatch (b : Bus) (w : Watching) : Bus × Turn Watching (Except ExchangeError Status) :=
  if b.reached w.x w.goal then (b, .ended (.ok (b.progress w.x).status))
  else if w.deadline.any fun t => b.holds (.time t) then
    (b, .ended (.error (.timeout (b.exchange w.x).id)))
  else (b, .waiting { w with seen := b.progress w.x })

def watch (b : Bus) (x : Nat) (g : Goal) (limit : Option Nat) :
    Bus × Turn Watching (Except ExchangeError Status) :=
  b.resumeWatch ⟨x, g, limit.map (b.now + ·), b.progress x⟩

/-- Goes on waiting until nothing is in flight; says whether that came in time. -/
def drain (b : Bus) (d : Draining) : Bus × Turn Draining Bool :=
  if b.holds .idle then (b, .ended true)
  else if b.holds (.time d.deadline) then (b, .ended false)
  else (b, .waiting d)

/-- Fails exchanges one after the other and counts those that had not ended. -/
def failAll (b : Bus) (cause : String) : List Nat → Bus × Nat
  | [] => (b, 0)
  | x :: rest =>
    let (b, r) := b.change x (.fail cause)
    let (b, n) := failAll b cause rest
    (b, n + if r.isOk then 1 else 0)

def failInFlight (b : Bus) (cause : String) : Bus × Nat := b.failAll cause b.inFlight.values

/-! ### The end -/

def beginShutdown (b : Bus) : Bus := { b with closing := true }

/-- Refuses sends, ends pending accepts and disconnects every component. -/
def stop (b : Bus) : Bus := { b with closing := true, stopped := true }.disconnectAll

def halt (b : Bus) : Bus :=
  let b := b.stop
  { b with registry := b.registry.clear }

def resumeShutdown (b : Bus) : ShuttingDown → Bus × Turn ShuttingDown Unit
  | .draining d =>
    match b.drain d with
    | (b, .waiting d) => (b, .waiting (.draining d))
    | (b, .ended true) => (b.halt, .ended ())
    | (b, .ended false) =>
      let b := (b.failInFlight shutdownCause).1
      match b.drain ⟨b.now + settleGrace⟩ with
      | (b, .waiting d) => (b, .waiting (.settling d))
      | (b, .ended _) => (b.halt, .ended ())
  | .settling d =>
    match b.drain d with
    | (b, .waiting d) => (b, .waiting (.settling d))
    | (b, .ended _) => (b.halt, .ended ())

/-- Shuts down: no new sends, so much time for what is in flight, then an end to the rest. -/
def shutdown (b : Bus) (limit : Nat) : Bus × Turn ShuttingDown Unit :=
  b.beginShutdown.resumeShutdown (.draining ⟨b.now + limit⟩)

end Bus

end ServiceBus
