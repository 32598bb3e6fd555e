import ServiceBus.Simulation.Immediate
import ServiceBus.Simulation.Storage

/-!
# Starting an action and going on with it

`Simulation.begin` starts an action; one that cannot be answered at once leaves a `Pending` that
`Simulation.resume` goes on with. `Simulation.abandon` lets go of one that nobody waits for any
more.
-/

namespace ServiceBus.Simulation

/-! ### What calls come to -/

def continueSend (s : Simulation) : Bus × Turn Sending SendResult → Begun
  | (bus, t) =>
    ({ s with bus }, t.map .sending fun r => (r.mapError .router).map .status)

/-- An accept; the exchange gets a name if the caller wants one. -/
def continueAccept (s : Simulation) (name : Option String) :
    Bus × Turn Accepting AcceptResult → Begun
  | (bus, .waiting c) => ({ s with bus }, .waiting (.accepting c name))
  | (bus, .ended (.error e)) => { s with bus }.reply (.error (.router e))
  | (bus, .ended (.ok x)) =>
    let s := { s with bus }
    let answer := .found (s.bus.exchange x).id (s.namesOf x) none
    (match name with
      | some n => s.nameExchange n x
      | none => s).reply (.ok answer)

def continueWatch (s : Simulation) :
    Bus × Turn Watching (Except ExchangeError Status) → Begun
  | (bus, t) =>
    ({ s with bus }, t.map .watching fun r => (r.mapError .exchange).map .status)

def continueDrain (s : Simulation) : Bus × Turn Draining Bool → Begun
  | (bus, t) => ({ s with bus }, t.map .draining fun b => .ok (.flag b))

def continueShutdown (s : Simulation) : Bus × Turn ShuttingDown Unit → Begun
  | (bus, t) => ({ s with bus }, t.map .shuttingDown fun _ => .ok .nothing)

def sleepUntil (s : Simulation) (t : Nat) : Begun :=
  if s.bus.holds (.time t) then s.reply (.ok .nothing) else (s, .waiting (.sleeping t))

/-! ### Starting -/

def withExchange (s : Simulation) (p : Party) (name : String) (f : Nat → Begun) : Begun :=
  match s.exchange? p name with
  | .ok x => f x
  | .error e => s.reply (.error e)

def onBus (s : Simulation) (p : Party) : BusAction → Begun
  | .connectQueue c => { s with bus := s.bus.connectQueue c }.reply (.ok .nothing)
  | .disconnect c =>
    let (bus, was) := s.bus.disconnect c
    { s with bus }.reply (.ok (.flag was))
  | .disconnectAll => { s with bus := s.bus.disconnectAll }.reply (.ok .nothing)
  | .isConnected c => s.reply (.ok (.flag (s.bus.components.contains c)))
  | .send x => s.withExchange p x fun x => s.continueSend (s.bus.send x)
  | .respond x => s.withExchange p x fun x => s.continueSend (s.bus.respond x)
  | .watch x g limit =>
    s.withExchange p x fun x => s.continueWatch (s.bus.watch x g limit)
  | .accept c name limit => s.continueAccept name (s.bus.accept c limit)
  | .retrieve id name =>
    match s.entryId? p id with
    | .ok id => s.continueAccess (.retrieved id name) (s.bus.retrieve id)
    | .error e => s.reply (.error e)
  | .inFlight => s.reply (.ok (.count s.bus.inFlight.size))
  | .beginShutdown => { s with bus := s.bus.beginShutdown }.reply (.ok .nothing)
  | .stop => { s with bus := s.bus.stop }.reply (.ok .nothing)
  | .isClosing => s.reply (.ok (.flag s.bus.closing))
  | .drain limit => s.continueDrain (s.bus.drain ⟨s.bus.now + limit⟩)
  | .failInFlight cause =>
    let (bus, n) := s.bus.failInFlight cause
    { s with bus }.reply (.ok (.count n))
  | .strategy => s.reply (.ok (.text s.bus.selector.strategy.display))
  | .diagnostic => s.reply (.ok (.text s.bus.diagnostic))
  | .sleep ms => s.sleepUntil (s.bus.now + ms)
  | .log c => s.reply (.ok (.log ((s.logs.get? c).getD [])))

def containerDiagnostic (s : Simulation) (store : Store) : String :=
  "ContainerRuntime \x7b registry: " ++ s.bus.registry.diagnostic ++ ", router: " ++
    s.bus.diagnostic ++ ", store: " ++ store.diagnostic ++ ", .. \x7d"

def onContainer (s : Simulation) (a : ContainerAction) : Begun :=
  match s.container, s.bus.settings.store with
  | some (c, factory), some n =>
    let store := s.bus.store n
    match a with
    | .deactivateComponent component =>
      let bus := (s.bus.disconnect component).1
      let (registry, n) := bus.registry.unregisterComponent component
      { s with bus := { bus with registry } }.reply (.ok (.count n))
    | .openStore store name => s.openFrom factory store (.contained store name)
    | .info => s.reply (.ok (.info c store.name s.bus.selector.strategy))
    | .diagnostic => s.reply (.ok (.text (s.containerDiagnostic store)))
    | .shutdown => s.continueShutdown (s.bus.shutdown c.timeouts.shutdownDrain)
  | _, _ => s.reply (.error .unknown)

def connectProcessor (s : Simulation) (c : ComponentId) (script : Script) : Simulation :=
  { s with
    scripts := s.scripts ++ [(c, script)]
    bus := s.bus.connect c (.push s.scripts.length) }

def join (s : Simulation) (name : String) : Result :=
  match s.background.get? name with
  | none => .error .unknown
  | some n =>
    match s.answers.get? n with
    | some r => .ok (.joined r)
    | none => .ok .pending

/-- Starts somebody in the background on behalf of a party. -/
def spawn (s : Simulation) (p : Party) (name : String) (step : Step Action) : Simulation :=
  let (bus, n) := s.bus.take
  { s with
    bus
    background := s.background.insert name n
    ready := s.ready ++ [.started (.background n (bus.now + patience) p.subject) [step]] }

/-- What a round leaves: it goes on, or a millisecond passes before the next one. -/
def afterRound (rest : List (Step Action)) (failed : Nat) : Begun → Begun
  | (s, .waiting c) => (s, .waiting (.round c rest failed))
  | (s, .ended r) =>
    (s, .waiting (.pausing (s.bus.now + 1) rest (failed + if r.isOk then 0 else 1) r))

/-- Starts an action of a party. What only a script can do is unknown here. -/
def begin (s : Simulation) (p : Party) : Action → Begun
  | .registry a =>
    let (s, r) := s.onRegistry a
    s.reply r
  | .exchange a =>
    let (s, r) := s.onExchange p a
    s.reply r
  | .bus a => s.onBus p a
  | .store a => s.onStore p a
  | .container a => s.onContainer a
  | .connectProcessor c script => (s.connectProcessor c script).reply (.ok .nothing)
  | .spawn name step => (s.spawn p name step).reply (.ok .nothing)
  | .join name => s.reply (s.join name)
  | .sequence [] => s.reply (.ok (.tally 0 none))
  | .sequence (⟨_, _, a⟩ :: rest) => afterRound rest 0 (s.begin p a)
  | .refuse _ | .panic _ | .finish => s.reply (.error .unknown)

/-! ### Going on -/

def nextRound (s : Simulation) (p : Party) (failed : Nat) (last : Result) :
    List (Step Action) → Begun
  | [] => s.reply (.ok (.tally failed (some last)))
  | step :: rest => afterRound rest failed (s.begin p step.action)

def resume (s : Simulation) (p : Party) : Pending → Begun
  | .sending c => s.continueSend (s.bus.resumeSend c)
  | .accepting c name => s.continueAccept name (s.bus.resumeAccept c)
  | .watching c => s.continueWatch (s.bus.resumeWatch c)
  | .draining c => s.continueDrain (s.bus.drain c)
  | .sleeping t => s.sleepUntil t
  | .accessing c purpose => s.continueAccess purpose (s.bus.resumeAccess c)
  | .opening c o => s.continueOpening o (s.bus.resumeOpening c)
  | .shuttingDown c => s.continueShutdown (s.bus.resumeShutdown c)
  | .round c rest failed => afterRound rest failed (s.resume p c)
  | .pausing t rest failed last =>
    if s.bus.holds (.time t) then s.nextRound p failed last rest
    else (s, .waiting (.pausing t rest failed last))

def abandon (s : Simulation) : Pending → Simulation
  | .sending c => { s with bus := s.bus.abandonSend c }
  | .accepting c _ => { s with bus := s.bus.abandonAccept c }
  | .round c _ _ => s.abandon c
  | _ => s

end ServiceBus.Simulation
