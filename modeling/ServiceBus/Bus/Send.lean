import ServiceBus.Bus.Route
import ServiceBus.Bus.Storage

/-!
# Sending

`Bus.send` takes an exchange to the other party. From the consumer it goes to the provider that
`resolveTarget` finds: it is dispatched, written down if it is to persist, counted in flight and
delivered, to a processor or into a queue. A synchronous send then waits for the reply or the end.
From the provider it goes back with its reply (`Bus.respond`). A `Sending` is a send that waits.
-/

namespace ServiceBus

inductive Sending where
  /-- For the exchange to be written down before it is delivered. -/
  | persisting (x : Nat) (target : Endpoint) (delivery : Delivery) (access : Access)
  /-- For a processor or the end of the exchange. -/
  | processing (x run deadline : Nat) (seen : Progress)
  /-- For a slot in a queue. -/
  | queueing (x : Nat) (component : ComponentId) (queue ticket : Nat)
  /-- For the reply of a component that accepts. -/
  | replying (x deadline : Nat) (seen : Progress)
  /-- For the reply to be written down. -/
  | responding (x : Nat) (access : Access)

abbrev SendResult := Except RouterError Status

namespace Sending

def waits : Sending → List Wait
  | .persisting _ _ _ a | .responding _ a => [.disk a.ticket]
  | .processing x run deadline seen =>
    [.outcome run, .exchange x .completion seen, .time deadline]
  | .queueing _ _ q ticket => [.stopped, .closed q, .slot q ticket]
  | .replying x deadline seen => [.exchange x .reply seen, .time deadline]

end Sending

/-- Why a processor's exchange is failed when nothing else ended it. -/
def unfinishedCause : String := "processor returned without completing the exchange"

/-- Why a processor's exchange is to be failed on the processor's account. -/
def Outcome.reason? (run : Nat) : Outcome → Option String
  | .returned => none
  | .refused reason => some reason
  | .panicked message =>
    some ("processor panicked: task " ++ toString run ++ " panicked with message " ++
      Quoted.write message)

namespace Bus

/-! ### Replies -/

/-- What a reply's being written down comes to. -/
def replied (b : Bus) (x : Nat) : Turn Access StoreAnswer → Turn Sending SendResult
  | .waiting a => .waiting (.responding x a)
  | .ended (.error e) => .ended (.error (.store e))
  | .ended (.ok _) => .ended (.ok (b.exchange x).status)

def respond (b : Bus) (x : Nat) : Bus × Turn Sending SendResult :=
  let status := (b.exchange x).status
  if status.isTerminal then (b, .ended (.ok status))
  else
    match b.change x .handBack with
    | (b, .error e) => (b, .ended (.error (.exchange e)))
    | (b, .ok ()) =>
      if b.persists x then
        let (b, t) := b.persist x
        (b, b.replied x t)
      else (b, .ended (.ok (b.exchange x).status))

/-! ### After a processor -/

/-- Settles an exchange whose processor has come to its end. -/
def settle (b : Bus) (x run : Nat) (o : Outcome) : Bus × Except RouterError Unit :=
  match o.reason? run with
  | some reason =>
    match b.change x (.fail reason) with
    | (b, .ok ()) => (b, .error (.rejected (b.exchange x).id reason))
    | (b, .error _) => (b, .ok ())
  | none =>
    let e := b.exchange x
    if e.replyReady then ((b.change x .handBack).1, .ok ())
    else if e.status.isTerminal || e.owner = .consumer then (b, .ok ())
    else (b.failQuietly x unfinishedCause, .ok ())

/-- Takes note of a processor's end: of one nobody waits for, the exchange is settled here, unless
it panicked. -/
def finish (b : Bus) (x run : Nat) (awaited : Bool) (o : Outcome) : Bus :=
  if awaited then { b with outcomes := b.outcomes.insert run o }
  else
    match o with
    | .panicked _ => b
    | o => (b.settle x run o).1

/-! ### Delivery -/

def timedOut (b : Bus) (x : Nat) : Bus × Turn Sending SendResult :=
  let limit := b.settings.syncTimeout
  (b.failQuietly x ("no reply within " ++ Duration.display limit),
    .ended (.error (.timeout (some (b.exchange x).id) limit)))

/-- Goes on with a synchronous send to a processor. -/
def awaitProcessor (b : Bus) (x run deadline : Nat) : Bus × Turn Sending SendResult :=
  match b.outcomes.get? run with
  | some o =>
    match b.settle x run o with
    | (b, .error e) => (b, .ended (.error e))
    | (b, .ok ()) => (b, .ended (.ok (b.exchange x).status))
  | none =>
    if b.reached x .completion then (b, .ended (.ok (b.progress x).status))
    else if b.holds (.time deadline) then b.timedOut x
    else (b, .waiting (.processing x run deadline (b.progress x)))

def awaitReply (b : Bus) (x deadline : Nat) : Bus × Turn Sending SendResult :=
  if b.reached x .reply then (b, .ended (.ok (b.progress x).status))
  else if b.holds (.time deadline) then b.timedOut x
  else (b, .waiting (.replying x deadline (b.progress x)))

def queued (b : Bus) (x : Nat) : Bus × Turn Sending SendResult :=
  if (b.exchange x).synchronous then b.awaitReply x (b.now + b.settings.syncTimeout)
  else (b, .ended (.ok .active))

def refuseQueue (b : Bus) (x : Nat) (e : RouterError) : Bus × Turn Sending SendResult :=
  (b.failQuietly x e.message, .ended (.error e))

/-- Takes a send out of line, if it stands there. -/
def forgo (b : Bus) (q : Nat) : Option Nat → Bus
  | some ticket => b.setQueue q ((b.queue q).withdraw ticket)
  | none => b

/-- Goes on with a send to a component that accepts, which may be standing in line. -/
def enqueue (b : Bus) (x : Nat) (c : ComponentId) (q : Nat) (ticket : Option Nat) :
    Bus × Turn Sending SendResult :=
  if b.holds .stopped then (b.forgo q ticket).refuseQueue x .shuttingDown
  else if b.holds (.closed q) then (b.forgo q ticket).refuseQueue x (.notConnected c)
  else
    match ticket with
    | none =>
      match (b.queue q).offer? x with
      | some p => (b.setQueue q p).queued x
      | none =>
        let (b, t) := b.take
        (b.setQueue q ((b.queue q).enlist t), .waiting (.queueing x c q t))
    | some t =>
      match (b.queue q).use? t x with
      | some p => (b.setQueue q p).queued x
      | none => (b, .waiting (.queueing x c q t))

def push (b : Bus) (x processor : Nat) : Bus × Turn Sending SendResult :=
  let (b, run) := b.take
  let awaited := (b.exchange x).synchronous
  let b := b.launch (.processor run processor x awaited)
  if awaited then b.awaitProcessor x run (b.now + b.settings.syncTimeout)
  else (b, .ended (.ok .active))

/-- Counts an exchange in flight until it ends. -/
def track (b : Bus) (x : Nat) : Bus :=
  { b with inFlight := b.inFlight.insert (b.exchange x).id x }.launch (.tracker x (b.persists x))

def deliver (b : Bus) (x : Nat) (target : Endpoint) (d : Delivery) :
    Bus × Turn Sending SendResult :=
  let b := b.track x
  match d with
  | .push processor => b.push x processor
  | .pull q => b.enqueue x target.component q none

/-- Goes on with a send whose exchange is being written down. -/
def persisted (b : Bus) (x : Nat) (target : Endpoint) (d : Delivery) :
    Turn Access StoreAnswer → Bus × Turn Sending SendResult
  | .waiting a => (b, .waiting (.persisting x target d a))
  | .ended (.ok _) => b.deliver x target d
  | .ended (.error e) =>
    (b.failQuietly x ("failed to persist exchange: " ++ e.message), .ended (.error (.store e)))

def dispatch (b : Bus) (x : Nat) (target : Endpoint) (d : Delivery) :
    Bus × Turn Sending SendResult :=
  match b.change x (.dispatch target) with
  | (b, .error e) => (b, .ended (.error (.exchange e)))
  | (b, .ok ()) =>
    if b.persists x then
      let (b, t) := b.persist x
      b.persisted x target d t
    else b.deliver x target d

/-- Takes an exchange to the other party. -/
def send (b : Bus) (x : Nat) : Bus × Turn Sending SendResult :=
  let e := b.exchange x
  if e.status.isTerminal then (b, .ended (.ok e.status))
  else if e.owner = .provider then b.respond x
  else if b.closing then (b, .ended (.error .shuttingDown))
  else
    match b.resolveTarget x with
    | (b, .error err) => (b, .ended (.error err))
    | (b, .ok target) =>
      match b.components.get? target.component with
      | some d => b.dispatch x target d
      | none =>
        (b.failQuietly x ("component '" ++ target.component.name ++ "' is not connected"),
          .ended (.error (.notConnected target.component)))

def resumeSend (b : Bus) : Sending → Bus × Turn Sending SendResult
  | .persisting x target d a =>
    let (b, t) := b.resumeAccess a
    b.persisted x target d t
  | .processing x run deadline _ => b.awaitProcessor x run deadline
  | .queueing x c q ticket => b.enqueue x c q (some ticket)
  | .replying x deadline _ => b.awaitReply x deadline
  | .responding x a =>
    let (b, t) := b.resumeAccess a
    (b, b.replied x t)

def abandonSend (b : Bus) : Sending → Bus
  | .queueing _ _ q ticket => b.forgo q (some ticket)
  | _ => b

end Bus

end ServiceBus
