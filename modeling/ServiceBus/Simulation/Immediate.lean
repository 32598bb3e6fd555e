import ServiceBus.Simulation.Basic

/-!
# Actions that are answered at once

Actions on the registry and on exchanges. None of them waits.
-/

namespace ServiceBus.Simulation

/-- Endpoints in the order of their ids, then of their components. -/
def listed (l : List Endpoint) : Answer :=
  .endpoints <| l.mergeSort fun a b =>
    ((compare a.id b.id).then (compare a.component b.component)).isLE

/-! ### The registry -/

/-- How many events a subscriber can be behind without losing any. -/
def backlog : Nat := 128

def eventText : Event → String
  | .registered e => "Registered " ++ e.brief
  | .unregistered e => "Unregistered " ++ e.brief
  | .externalRegistered e => "ExternalRegistered " ++ e.brief
  | .externalUnregistered e => "ExternalUnregistered " ++ e.brief

/-- What a subscriber who knows so many events is told. -/
def news (history : List Event) (known : Nat) : List String :=
  let pending := history.drop known
  let lost := pending.length - backlog
  (if lost = 0 then [] else ["Lagged " ++ toString lost]) ++ (pending.drop lost).map eventText

def setRegistry (s : Simulation) (r : Registry) : Simulation :=
  { s with bus := { s.bus with registry := r } }

/-- The reference of an endpoint, and whether what is read back from it resolves to the endpoint. -/
def referenceOf (r : Registry) (e : Endpoint) : Reference × Bool :=
  let ref := Reference.ofEndpoint e
  let again := match Reference.read (.ofString ref.write) with
    | .ok back => (r.resolve back).any e.sameIdentity
    | .error _ => false
  (ref, again)

def onRegistry (s : Simulation) : RegistryAction → Simulation × Result
  | .register e =>
    match s.bus.registry.register e with
    | .ok r => (s.setRegistry r, .ok (.text e.toJson.render))
    | .error err => (s, .error (.registry err))
  | .registerExternal e =>
    match s.bus.registry.registerExternal e with
    | .ok r => (s.setRegistry r, .ok (.text e.toJson.render))
    | .error err => (s, .error (.registry err))
  | .unregister c k =>
    let (r, e) := s.bus.registry.unregister c k
    (s.setRegistry r, .ok (.endpoint e))
  | .unregisterComponent c =>
    let (r, n) := s.bus.registry.unregisterComponent c
    (s.setRegistry r, .ok (.count n))
  | .unregisterExternal k =>
    let (r, e) := s.bus.registry.unregisterExternal k
    (s.setRegistry r, .ok (.endpoint e))
  | .get k =>
    (s, .ok (match s.bus.registry.get? k with
      | some e => .text e.toJson.render
      | none => .nothing))
  | .lookupService n => (s, .ok (listed (s.bus.registry.lookupService n)))
  | .lookupInterface i => (s, .ok (listed (s.bus.registry.lookupInterface i)))
  | .ofComponent c => (s, .ok (listed (s.bus.registry.ofComponent c)))
  | .externalsOfService n => (s, .ok (listed (s.bus.registry.externalsOfService n)))
  | .externalsOfInterface i => (s, .ok (listed (s.bus.registry.externalsOfInterface i)))
  | .pin i k => (s.setRegistry (s.bus.registry.pin i k), .ok .nothing)
  | .unpin i =>
    let (r, was) := s.bus.registry.unpin i
    (s.setRegistry r, .ok (.flag was))
  | .link source target =>
    match s.bus.registry.link source target with
    | .ok r => (s.setRegistry r, .ok .nothing)
    | .error err => (s, .error (.registry err))
  | .unlink source =>
    let (r, was) := s.bus.registry.unlink source
    (s.setRegistry r, .ok (.flag was))
  | .linked source => (s, .ok (.endpoint (s.bus.registry.linked? source)))
  | .resolve ref => (s, .ok (.endpoint (s.bus.registry.resolve ref)))
  | .resolveDocument d =>
    match Reference.read d with
    | .ok ref => (s, .ok (.endpoint (s.bus.registry.resolve ref)))
    | .error e => (s, .error (.reference e))
  | .reference k =>
    (s, .ok (.reference ((s.bus.registry.get? k).map (referenceOf s.bus.registry))))
  | .size => (s, .ok (.size s.bus.registry.size))
  | .clear => (s.setRegistry s.bus.registry.clear, .ok .nothing)
  | .diagnostic => (s, .ok (.text s.bus.registry.diagnostic))
  | .subscribe name =>
    ({ s with subscribers := s.subscribers.insert name s.bus.registry.history.length },
      .ok .nothing)
  | .events name sorted =>
    match s.subscribers.get? name with
    | none => (s, .error .unknown)
    | some known =>
      let told := news s.bus.registry.history known
      ({ s with subscribers := s.subscribers.insert name s.bus.registry.history.length },
        .ok (.texts (if sorted then sortBy id told else told)))

/-! ### Exchanges -/

def chosen (r : Registry) : EndpointChoice → Option Endpoint
  | .described e => some e
  | .registered k => r.get? k

def create (s : Simulation) (name : String) (n : NewExchange) : Simulation × Result :=
  let (s, tail) := s.makeUp name
  let draft : Draft :=
    { pattern := n.pattern, synchronous := n.synchronous, persistent := n.persistent
      service := n.service, interface := n.interface, operation := n.operation
      target := n.target >>= chosen s.bus.registry, source := n.source >>= chosen s.bus.registry
      input := n.input, properties := n.properties }
  (s.addExchange name (draft.build ("exchange_" ++ tail)), .ok (.created "exchange_"))

/-- Changes an exchange, perhaps by what is in it. -/
def changeExchange (s : Simulation) (p : Party) (name : String)
    (c : Exchange → Change) : Simulation × Result :=
  match s.exchange? p name with
  | .error e => (s, .error e)
  | .ok x =>
    match s.bus.change x (c (s.bus.exchange x)) with
    | (bus, .ok ()) => ({ s with bus }, .ok .nothing)
    | (bus, .error e) => ({ s with bus }, .error (.exchange e))

def inspect (s : Simulation) (p : Party) (name : String) (f : Exchange → Answer) :
    Simulation × Result :=
  (s, (s.exchange? p name).map fun x => f (s.bus.exchange x))

def restoreSnapshot (s : Simulation) (name : String) (snapshot : Snapshot) : Simulation × Result :=
  let e := snapshot.restore s.bus.registry
  (s.addExchange name e, .ok (.found e.id [] (some (e.snapshot = snapshot))))

def onExchange (s : Simulation) (p : Party) : ExchangeAction → Simulation × Result
  | .create name n => s.create name n
  | .setIn x m => s.changeExchange p x fun _ => .setIn m
  | .setOut x m => s.changeExchange p x fun _ => .setOut m
  | .setFault x f => s.changeExchange p x fun _ => .setFault f
  | .echo x => s.changeExchange p x fun e => .setOut (e.input.getD .empty)
  | .setProperty x name v => s.changeExchange p x fun _ => .setProperty name v
  | .done x => s.changeExchange p x fun _ => .done
  | .fail x cause => s.changeExchange p x fun _ => .fail cause
  | .property x name => s.inspect p x fun e => .property (e.property? name)
  | .snapshot x => s.inspect p x fun e => .text e.snapshot.toJson.render
  | .diagnostic x => s.inspect p x fun e => .text e.diagnostic
  | .view x => s.inspect p x .view
  | .restore name d =>
    match (Raw.parse? d).bind (Decoder.document Snapshot.decode) with
    | some snapshot => s.restoreSnapshot name snapshot
    | none => (s, .error .unreadable)
  | .restoreOf name x =>
    match s.exchange? p x with
    | .ok x => s.restoreSnapshot name (s.bus.exchange x).snapshot
    | .error e => (s, .error e)
  | .same a b =>
    match s.exchange? p a, s.exchange? p b with
    | .ok x, .ok y =>
      (s, .ok (.comparison (x = y) ((s.bus.exchange x).id = (s.bus.exchange y).id)))
    | _, _ => (s, .error .unknown)

end ServiceBus.Simulation
