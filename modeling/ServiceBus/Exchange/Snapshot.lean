import ServiceBus.Exchange.Basic
import ServiceBus.Registry.Basic

/-!
# Exchange snapshots

A `Snapshot` is what is written down of an exchange while it is in flight. Endpoints are recorded by
id; `Snapshot.restore` finds them again in a registry, and one that is no longer live comes back as
none.
-/

namespace ServiceBus

structure Snapshot where
  version : Nat
  exchangeId : String
  pattern : Pattern
  status : Status
  role : Role
  hops : Nat
  synchronous : Bool
  persistent : Bool
  source : Option EndpointId
  target : Option EndpointId
  service : Option QualifiedName
  interface : Option QualifiedName
  operation : Option QualifiedName
  input : Option Message
  output : Option Message
  fault : Option Fault
  error : Option String
  properties : Properties
  deriving DecidableEq, Repr

namespace Snapshot

def currentVersion : Nat := 1

/-- The snapshot as an object; what is not set stands as `null`. -/
def toJson (s : Snapshot) : Json :=
  .object [("version", .nat s.version), ("exchangeId", .text s.exchangeId),
    ("pattern", .text s.pattern.display), ("status", .text s.status.display),
    ("role", .text s.role.display), ("hops", .nat s.hops), ("synchronous", .bool s.synchronous),
    ("persistent", .bool s.persistent), ("source", .ofOption EndpointId.toJson s.source),
    ("target", .ofOption EndpointId.toJson s.target),
    ("serviceName", .ofOption QualifiedName.toJson s.service),
    ("interfaceName", .ofOption QualifiedName.toJson s.interface),
    ("operation", .ofOption QualifiedName.toJson s.operation),
    ("inMessage", .ofOption Message.toJson s.input),
    ("outMessage", .ofOption Message.toJson s.output), ("fault", .ofOption Fault.toJson s.fault),
    ("error", .ofOption .text s.error), ("properties", .object s.properties)]

def fieldNames : List String :=
  ["version", "exchangeId", "pattern", "status", "role", "hops", "synchronous", "persistent",
    "source", "target", "serviceName", "interfaceName", "operation", "inMessage", "outMessage",
    "fault", "error", "properties"]

def decode : Decoder Snapshot := fun d r => do
  let f ← r.record? fieldNames d
  let version ← f.required "version" .word32
  let exchangeId ← f.required "exchangeId" .text
  let pattern ← f.required "pattern" Pattern.decode
  let status ← f.required "status" Status.decode
  let role ← f.required "role" Role.decode
  let hops ← f.required "hops" .byte
  let synchronous ← f.required "synchronous" .bool
  let persistent ← f.required "persistent" .bool
  let source ← f.optional "source" EndpointId.decode
  let target ← f.optional "target" EndpointId.decode
  let service ← f.optional "serviceName" QualifiedName.decode
  let interface ← f.optional "interfaceName" QualifiedName.decode
  let operation ← f.optional "operation" QualifiedName.decode
  let input ← f.optional "inMessage" Message.decode
  let output ← f.optional "outMessage" Message.decode
  let fault ← f.optional "fault" Fault.decode
  let error ← f.optional "error" .text
  let properties ← f.orElse "properties" .members []
  some { version, exchangeId, pattern, status, role, hops, synchronous, persistent, source, target
         service, interface, operation, input, output, fault, error, properties }

/-- The exchange a snapshot records, its endpoints found in a registry. -/
def restore (s : Snapshot) (r : Registry) : Exchange :=
  { id := s.exchangeId, pattern := s.pattern, synchronous := s.synchronous
    persistent := s.persistent, status := s.status, owner := s.role, hops := s.hops
    source := s.source >>= r.get?, target := s.target >>= r.get?
    service := s.service, interface := s.interface, operation := s.operation
    input := s.input, output := s.output, fault := s.fault, error := s.error
    properties := s.properties, published := ⟨s.status, s.role, s.hops⟩ }

end Snapshot

def Exchange.snapshot (x : Exchange) : Snapshot :=
  { version := Snapshot.currentVersion, exchangeId := x.id, pattern := x.pattern
    status := x.status, role := x.owner, hops := x.hops, synchronous := x.synchronous
    persistent := x.persistent, source := x.source.map (·.id), target := x.target.map (·.id)
    service := x.service, interface := x.interface, operation := x.operation, input := x.input
    output := x.output, fault := x.fault, error := x.error, properties := x.properties }

end ServiceBus
