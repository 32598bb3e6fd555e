import ServiceBus.Endpoint.Basic
import ServiceBus.Exchange.Message
import ServiceBus.Text.Quoted

/-!
# Message exchanges

An `Exchange` is one unit of work between a consumer and a provider. It starts active in the
consumer's hands; dispatching hands it to the provider, handing it back returns it with a reply, and
either party may end it. A `Change` says what somebody wants to do; `Exchange.change` does it, unless
the exchange has ended or does not allow it, and publishes the exchange's progress for those who
wait.
-/

namespace ServiceBus

inductive Pattern where
  /-- A request alone. -/
  | inOnly
  /-- A request and a reply or fault. -/
  | inOut
  /-- A request that may be answered by a fault. -/
  | robustInOnly
  deriving DecidableEq, Repr, Inhabited

namespace Pattern

def uri : Pattern → String
  | .inOnly => "http://www.w3.org/2004/08/wsdl/in-only"
  | .inOut => "http://www.w3.org/2004/08/wsdl/in-out"
  | .robustInOnly => "http://www.w3.org/2004/08/wsdl/robust-in-only"

def allowsOut : Pattern → Bool
  | .inOut => true
  | .inOnly | .robustInOnly => false

def allowsFault : Pattern → Bool
  | .inOut | .robustInOnly => true
  | .inOnly => false

def display : Pattern → String
  | .inOnly => "IN_ONLY"
  | .inOut => "IN_OUT"
  | .robustInOnly => "ROBUST_IN_ONLY"

def diagnostic : Pattern → String
  | .inOnly => "InOnly"
  | .inOut => "InOut"
  | .robustInOnly => "RobustInOnly"

def decode : Decoder Pattern :=
  .choice [("IN_ONLY", .inOnly), ("IN_OUT", .inOut), ("ROBUST_IN_ONLY", .robustInOnly)]

end Pattern

inductive Status where
  | active
  | done
  | error
  deriving DecidableEq, Repr, Inhabited

namespace Status

def isTerminal : Status → Bool
  | .active => false
  | .done | .error => true

def display : Status → String
  | .active => "ACTIVE"
  | .done => "DONE"
  | .error => "ERROR"

def diagnostic : Status → String
  | .active => "Active"
  | .done => "Done"
  | .error => "Error"

def decode : Decoder Status := .choice [("ACTIVE", .active), ("DONE", .done), ("ERROR", .error)]

end Status

/-! ### Refusals -/

inductive Attempt where
  | setProperty
  | setIn
  | setOut
  | setFault
  | complete
  | fail
  | send
  | reply
  deriving DecidableEq, Repr

/-- An attempt in words, to be followed by the exchange. -/
def Attempt.verb : Attempt → String
  | .setProperty => "set a property on"
  | .setIn => "set the in message of"
  | .setOut => "set the out message of"
  | .setFault => "set the fault of"
  | .complete => "complete"
  | .fail => "fail"
  | .send => "send"
  | .reply => "reply to"

/-- Why an attempt on an active exchange is refused. -/
inductive Refusal where
  | inMessageLocked
  | noOutMessage (p : Pattern)
  | noFault (p : Pattern)
  | notProvider
  | replyAlreadySet
  | incomplete (p : Pattern)
  | alreadySent
  | inMessageMissing
  | notDelivered
  | noReply
  deriving DecidableEq, Repr

def Refusal.message : Refusal → String
  | .inMessageLocked => "the in message can only be set by the consumer before sending"
  | .noOutMessage p => p.display ++ " exchanges carry no out message"
  | .noFault p => p.display ++ " exchanges carry no fault"
  | .notProvider => "only the provider may reply"
  | .replyAlreadySet => "a reply has already been set"
  | .incomplete p => p.display ++ " exchange cannot complete before its expected messages are set"
  | .alreadySent => "the exchange has already been sent"
  | .inMessageMissing => "the in message must be set before sending"
  | .notDelivered => "only a delivered exchange can be handed back"
  | .noReply => "no reply has been set"

inductive ExchangeError where
  /-- The exchange has ended. -/
  | illegalState (id : String) (status : Status) (attempt : Attempt)
  /-- The exchange is active and does not allow the attempt. -/
  | illegalTransition (id : String) (refusal : Refusal)
  /-- What was waited for did not come in time. -/
  | timeout (id : String)
  deriving DecidableEq, Repr

namespace ExchangeError

def message : ExchangeError → String
  | .illegalState id status attempt =>
    "Cannot " ++ attempt.verb ++ " exchange " ++ id ++ ": status is " ++ status.display
  | .illegalTransition id refusal =>
    "Illegal transition on exchange " ++ id ++ ": " ++ refusal.message
  | .timeout id => "Timed out waiting on exchange " ++ id

/-- Whether the state of the exchange ruled the call out. -/
def isIllegalState : ExchangeError → Bool
  | .illegalState .. | .illegalTransition .. => true
  | .timeout _ => false

def exchangeId : ExchangeError → String
  | .illegalState id _ _ | .illegalTransition id _ | .timeout id => id

end ExchangeError

/-! ### Exchanges -/

/-- What those who wait on an exchange see of it. -/
structure Progress where
  status : Status
  owner : Role
  hops : Nat
  deriving DecidableEq, Repr, Inhabited

namespace Progress

def isComplete (p : Progress) : Bool := p.status.isTerminal

/-- The exchange has ended, or its reply is back with the consumer. -/
def isReplied (p : Progress) : Bool :=
  p.status.isTerminal || (p.owner = .consumer && decide (1 < p.hops))

end Progress

/-- One unit of work between a consumer and a provider. -/
structure Exchange where
  id : String
  pattern : Pattern
  synchronous : Bool
  persistent : Bool
  status : Status
  owner : Role
  /-- How often the exchange has changed hands. -/
  hops : Nat
  /-- The consumer's endpoint. -/
  source : Option Endpoint
  /-- The provider's endpoint. -/
  target : Option Endpoint
  service : Option QualifiedName
  interface : Option QualifiedName
  operation : Option QualifiedName
  input : Option Message
  output : Option Message
  fault : Option Fault
  /-- Why the exchange ended in error. -/
  error : Option String
  properties : Properties
  /-- The progress last published. -/
  published : Progress
  deriving DecidableEq, Repr, Inhabited

inductive Change where
  | setProperty (name : String) (v : Json)
  /-- Sets the request. -/
  | setIn (m : Message)
  /-- Sets the reply. -/
  | setOut (m : Message)
  | setFault (f : Fault)
  /-- Ends the exchange normally. -/
  | done
  /-- Ends the exchange in error. -/
  | fail (cause : String)
  /-- Hands the exchange to the provider at an endpoint. -/
  | dispatch (target : Endpoint)
  /-- Hands the exchange with its reply back to the consumer. -/
  | handBack
  deriving DecidableEq, Repr

def Change.attempt : Change → Attempt
  | .setProperty .. => .setProperty
  | .setIn _ => .setIn
  | .setOut _ => .setOut
  | .setFault _ => .setFault
  | .done => .complete
  | .fail _ => .fail
  | .dispatch _ => .send
  | .handBack => .reply

namespace Exchange

def progress (x : Exchange) : Progress := ⟨x.status, x.owner, x.hops⟩

def publish (x : Exchange) : Exchange := { x with published := x.progress }

def hasReply (x : Exchange) : Bool := x.output.isSome || x.fault.isSome

/-- Whether the exchange is with a consumer who has not sent it. -/
def isUnsent (x : Exchange) : Bool := x.owner = .consumer && decide (x.hops = 0)

/-- Whether the exchange is with the provider it was sent to. -/
def isDelivered (x : Exchange) : Bool := x.owner = .provider && decide (x.hops = 1)

/-- Why a reply cannot be set, if it cannot. -/
def replyRefusal? (x : Exchange) : Option Refusal :=
  if x.owner ≠ .provider then some .notProvider
  else if x.hasReply then some .replyAlreadySet
  else none

/-- Whether the messages the pattern asks for are there. -/
def isSatisfied (x : Exchange) : Bool :=
  match x.pattern with
  | .inOnly | .robustInOnly => x.input.isSome
  | .inOut => x.hasReply

/-- What a change writes, and whether it is refused. What is written before a refusal stays. -/
def edit (x : Exchange) : Change → Exchange × Except Refusal Unit
  | .setProperty name v => ({ x with properties := Json.insert name v x.properties }, .ok ())
  | .setIn m =>
    if x.isUnsent then ({ x with input := some m }, .ok ()) else (x, .error .inMessageLocked)
  | .setOut m =>
    if !x.pattern.allowsOut then (x, .error (.noOutMessage x.pattern))
    else match x.replyRefusal? with
      | some refusal => (x, .error refusal)
      | none => ({ x with output := some m }, .ok ())
  | .setFault f =>
    if !x.pattern.allowsFault then (x, .error (.noFault x.pattern))
    else match x.replyRefusal? with
      | some refusal => (x, .error refusal)
      | none => ({ x with fault := some f }, .ok ())
  | .done =>
    if x.isSatisfied then ({ x with status := .done }, .ok ())
    else (x, .error (.incomplete x.pattern))
  | .fail cause => ({ x with status := .error, error := some cause }, .ok ())
  | .dispatch target =>
    if !x.isUnsent then (x, .error .alreadySent)
    else if x.input.isNone then (x, .error .inMessageMissing)
    else ({ x with target := some target, owner := .provider, hops := 1 }, .ok ())
  | .handBack =>
    if !x.isDelivered then (x, .error .notDelivered)
    else if !x.hasReply then (x, .error .noReply)
    else ({ x with owner := .consumer, hops := 2 }, .ok ())

/-- Makes a change, unless the exchange has ended. One that is not refused publishes the progress. -/
def change (x : Exchange) (c : Change) : Exchange × Except ExchangeError Unit :=
  if x.status.isTerminal then (x, .error (.illegalState x.id x.status c.attempt))
  else
    match x.edit c with
    | (y, .error refusal) => (y, .error (.illegalTransition x.id refusal))
    | (y, .ok ()) => (y.publish, .ok ())

@[simp] theorem published_publish (x : Exchange) : x.publish.published = x.publish.progress := rfl

/-- What has ended refuses everything. -/
theorem change_of_terminal {x : Exchange} (h : x.status.isTerminal = true) (c : Change) :
    x.change c = (x, .error (.illegalState x.id x.status c.attempt)) := by
  simp [change, h]

/-- Whether the provider holds the exchange with a reply to hand back. -/
def replyReady (x : Exchange) : Bool :=
  x.status = .active && x.isDelivered && x.hasReply

def property? (x : Exchange) (name : String) : Option Json := Json.member? name x.properties

def roleDiagnostic : Role → String
  | .provider => "Provider"
  | .consumer => "Consumer"

def diagnostic (x : Exchange) : String :=
  "MessageExchange \x7b id: " ++ Quoted.write x.id ++ ", pattern: " ++ x.pattern.diagnostic ++
    ", status: " ++ x.status.diagnostic ++ ", role: " ++ roleDiagnostic x.owner ++ ", .. \x7d"

end Exchange

/-! ### New exchanges -/

/-- What a consumer decides about an exchange before there is one. -/
structure Draft where
  pattern : Pattern
  synchronous : Bool
  persistent : Bool
  service : Option QualifiedName
  interface : Option QualifiedName
  operation : Option QualifiedName
  target : Option Endpoint
  source : Option Endpoint
  input : Option Message
  properties : Properties

/-- The exchange of a draft, under a fresh id. -/
def Draft.build (d : Draft) (id : String) : Exchange :=
  { id, pattern := d.pattern, synchronous := d.synchronous, persistent := d.persistent
    status := .active, owner := .consumer, hops := 0
    source := d.source, target := d.target
    service := d.service, interface := d.interface, operation := d.operation
    input := d.input, output := none, fault := none, error := none
    properties := d.properties, published := ⟨.active, .consumer, 0⟩ }

end ServiceBus
