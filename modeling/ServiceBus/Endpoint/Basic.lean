import ServiceBus.Name

/-!
# Endpoints

An `Endpoint` is a place where a component offers or uses a service. Its `EndpointId`, service plus
endpoint name, is what a registry files it under. `Endpoint.accepts` says which addresses designate
it: with protocols declared, every address that starts with one of them; without, its name or its
written id.
-/

namespace ServiceBus

structure ComponentId where
  name : String
  deriving DecidableEq, Repr, Inhabited, Ord

inductive Role where
  | provider
  | consumer
  deriving DecidableEq, Repr, Inhabited

namespace Role

def flipped : Role → Role
  | .provider => .consumer
  | .consumer => .provider

def display : Role → String
  | .provider => "PROVIDER"
  | .consumer => "CONSUMER"

def decode : Decoder Role := .choice [("PROVIDER", .provider), ("CONSUMER", .consumer)]

@[simp] theorem flipped_flipped (r : Role) : r.flipped.flipped = r := by cases r <;> rfl

end Role

/-- A service name and the name of an endpoint within the service. -/
structure EndpointId where
  service : QualifiedName
  endpoint : String
  deriving DecidableEq, Repr, Inhabited

namespace EndpointId

instance : Ord EndpointId :=
  ⟨fun a b => (compare a.service b.service).then (compare a.endpoint b.endpoint)⟩

def display (k : EndpointId) : String := k.service.display ++ ":" ++ k.endpoint

def toJson (k : EndpointId) : Json :=
  .object [("serviceName", k.service.toJson), ("endpointName", .text k.endpoint)]

def decode : Decoder EndpointId := fun d r => do
  let f ← r.record? ["serviceName", "endpointName"] d
  some ⟨← f.required "serviceName" QualifiedName.decode, ← f.required "endpointName" .text⟩

end EndpointId

/-- A place where a component offers or uses a service. -/
structure Endpoint where
  component : ComponentId
  service : QualifiedName
  name : String
  /-- The declared interfaces in increasing order, each once. -/
  interfaces : List QualifiedName
  role : Role
  /-- The accepted address prefixes; the first one spells the endpoint's own address. -/
  protocols : List String
  deriving DecidableEq, Repr, Inhabited

namespace Endpoint

/-- What the endpoint is filed under. -/
def id (e : Endpoint) : EndpointId := ⟨e.service, e.name⟩

def implements (e : Endpoint) (i : QualifiedName) : Bool := decide (i ∈ e.interfaces)

def sameIdentity (a b : Endpoint) : Bool :=
  decide (a.service = b.service ∧ a.name = b.name ∧ a.component = b.component)

/-- Whether an address designates the endpoint. -/
def accepts (e : Endpoint) (address : String) : Bool :=
  if e.protocols.isEmpty then address = e.name || address = e.id.display
  else e.protocols.any fun p => p.toList.isPrefixOf address.toList

/-- Whether a protocol followed by the endpoint name spells an address. -/
def spells (e : Endpoint) (address : String) : Bool :=
  e.protocols.any fun p => p ++ e.name = address

/-- The endpoint's address: its first protocol, if any, and its name. -/
def address (e : Endpoint) : String := (e.protocols.head?.getD "") ++ e.name

/-- Component and id, for lists of endpoints. -/
def brief (e : Endpoint) : String := e.component.name ++ "|" ++ e.id.display

/-! ### On the wire -/

def toJson (e : Endpoint) : Json :=
  .object [("componentId", .text e.component.name), ("serviceName", e.service.toJson),
    ("endpointName", .text e.name), ("interfaceNames", .array (e.interfaces.map (·.toJson))),
    ("role", .text e.role.display), ("protocols", .array (e.protocols.map .text))]

def decode : Decoder Endpoint := fun d r => do
  let f ← r.record?
    ["componentId", "serviceName", "endpointName", "interfaceNames", "role", "protocols"] d
  let component ← f.required "componentId" .text
  let service ← f.required "serviceName" QualifiedName.decode
  let name ← f.required "endpointName" .text
  let interfaces ← f.required "interfaceNames" (.list QualifiedName.decode)
  let role ← f.required "role" Role.decode
  let protocols ← f.required "protocols" (.list .text)
  some ⟨⟨component⟩, service, name, sortedSet interfaces, role, protocols⟩

end Endpoint

end ServiceBus
