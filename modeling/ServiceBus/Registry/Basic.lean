import ServiceBus.Endpoint.Reference
import ServiceBus.Table

/-!
# The endpoint registry

A `Registry` files live endpoints under their ids, one component per id, with an index from services
and one from declared interfaces to ids. Beside them it keeps interface pins, endpoint links and
external endpoints. Each change of the endpoints and the external endpoints is an `Event`, and
`history` holds all of them in order.
-/

namespace ServiceBus

/-- A change of the endpoints or the external endpoints. -/
inductive Event where
  | registered (e : Endpoint)
  | unregistered (e : Endpoint)
  | externalRegistered (e : Endpoint)
  | externalUnregistered (e : Endpoint)
  deriving DecidableEq, Repr

inductive RegistryError where
  | duplicateEndpoint (id : EndpointId) (owner requestedBy : ComponentId)
  | duplicateConnection (id : EndpointId)
  | duplicateExternal (id : EndpointId)
  deriving DecidableEq, Repr

def RegistryError.message : RegistryError → String
  | .duplicateEndpoint id owner requestedBy =>
    "Endpoint " ++ id.display ++ " is already registered by component " ++ owner.name ++
      "; refused registration from " ++ requestedBy.name
  | .duplicateConnection id =>
    "An endpoint connection for " ++ id.display ++ " is already registered"
  | .duplicateExternal id => "An external endpoint " ++ id.display ++ " is already registered"

/-- Ids filed under names; no name has an empty list. -/
abbrev Index := Table QualifiedName (List EndpointId)

namespace Index

def ids (x : Index) (n : QualifiedName) : List EndpointId := (x.get? n).getD []

def add (x : Index) (n : QualifiedName) (k : EndpointId) : Index :=
  let old := x.ids n
  x.insert n (if k ∈ old then old else old ++ [k])

def remove (x : Index) (n : QualifiedName) (k : EndpointId) : Index :=
  match x.get? n with
  | none => x
  | some old =>
    match old.filter (· ≠ k) with
    | [] => x.erase n
    | rest => x.insert n rest

end Index

/-- The endpoints of a container and how they are reached. -/
structure Registry where
  endpoints : Table EndpointId Endpoint
  byService : Index
  byInterface : Index
  /-- Interfaces pinned to one endpoint. -/
  pins : Table QualifiedName EndpointId
  /-- Virtual endpoints linked to concrete ones. -/
  links : Table EndpointId EndpointId
  /-- Proxies for consumers outside the container. -/
  externals : Table EndpointId Endpoint
  /-- All changes so far, oldest first. -/
  history : List Event

namespace Registry

def empty : Registry := ⟨.empty, .empty, .empty, .empty, .empty, .empty, []⟩

instance : Inhabited Registry := ⟨empty⟩

def emit (r : Registry) (e : Event) : Registry := { r with history := r.history ++ [e] }

def index (r : Registry) (e : Endpoint) : Registry :=
  { r with
    byService := r.byService.add e.service e.id
    byInterface := e.interfaces.foldl (fun x i => x.add i e.id) r.byInterface }

def unindexInterfaces (r : Registry) (k : EndpointId) (is : List QualifiedName) : Registry :=
  { r with byInterface := is.foldl (fun x i => x.remove i k) r.byInterface }

def unindex (r : Registry) (e : Endpoint) : Registry :=
  { r with byService := r.byService.remove e.service e.id }.unindexInterfaces e.id e.interfaces

/-! ### Endpoints -/

/-- The live endpoint filed under an id. -/
def get? (r : Registry) (k : EndpointId) : Option Endpoint := r.endpoints.get? k

/-- Publishes an endpoint. A component may replace what it published itself; an id held by another
component is refused. -/
def register (r : Registry) (e : Endpoint) : Except RegistryError Registry :=
  let filed := { r with endpoints := r.endpoints.insert e.id e }
  match r.get? e.id with
  | none => .ok ((filed.index e).emit (.registered e))
  | some old =>
    if old.component ≠ e.component then
      .error (.duplicateEndpoint e.id old.component e.component)
    else
      let stale := old.interfaces.filter fun i => !e.implements i
      .ok (((filed.unindexInterfaces e.id stale).index e).emit (.registered e))

/-- Withdraws what is filed under an id, if the component owns it. -/
def unregister (r : Registry) (c : ComponentId) (k : EndpointId) : Registry × Option Endpoint :=
  match r.get? k with
  | none => (r, none)
  | some old =>
    if old.component ≠ c then (r, none)
    else
      let r := r.unindex old
      ({ r with endpoints := r.endpoints.erase k }.emit (.unregistered old), some old)

def ofComponent (r : Registry) (c : ComponentId) : List Endpoint :=
  r.endpoints.values.filter fun e => e.component = c

/-- Withdraws endpoints one after the other and counts those that were still there. -/
def unregisterAll (r : Registry) : List Endpoint → Registry × Nat
  | [] => (r, 0)
  | e :: rest =>
    let (r, gone) := r.unregister e.component e.id
    let (r, n) := unregisterAll r rest
    (r, n + if gone.isSome then 1 else 0)

/-- Withdraws everything a component owns and counts it. -/
def unregisterComponent (r : Registry) (c : ComponentId) : Registry × Nat :=
  r.unregisterAll (r.ofComponent c)

/-! ### Pins, links and external endpoints -/

/-- Pins an interface to an endpoint, in place of an earlier pin. -/
def pin (r : Registry) (i : QualifiedName) (k : EndpointId) : Registry :=
  { r with pins := r.pins.insert i k }

def unpin (r : Registry) (i : QualifiedName) : Registry × Bool :=
  ({ r with pins := r.pins.erase i }, r.pins.contains i)

/-- Links a virtual endpoint to a concrete one, which need not be live yet. -/
def link (r : Registry) (source target : EndpointId) : Except RegistryError Registry :=
  if r.links.contains source then .error (.duplicateConnection source)
  else .ok { r with links := r.links.insert source target }

def unlink (r : Registry) (source : EndpointId) : Registry × Bool :=
  ({ r with links := r.links.erase source }, r.links.contains source)

/-- Publishes an external endpoint under an id that has none. -/
def registerExternal (r : Registry) (e : Endpoint) : Except RegistryError Registry :=
  if r.externals.contains e.id then .error (.duplicateExternal e.id)
  else .ok ({ r with externals := r.externals.insert e.id e }.emit (.externalRegistered e))

def unregisterExternal (r : Registry) (k : EndpointId) : Registry × Option Endpoint :=
  match r.externals.get? k with
  | none => (r, none)
  | some e => ({ r with externals := r.externals.erase k }.emit (.externalUnregistered e), some e)

/-- Withdraws every endpoint, then drops pins, links and external endpoints without an event. -/
def clear (r : Registry) : Registry :=
  { (r.unregisterAll r.endpoints.values).1 with
    pins := .empty
    links := .empty
    externals := .empty }

/-! ### Counts -/

def size (r : Registry) : Nat := r.endpoints.size

def diagnostic (r : Registry) : String :=
  "EndpointRegistry \x7b endpoints: " ++ toString r.endpoints.size ++
    ", services: " ++ toString r.byService.size ++
    ", interfaces: " ++ toString r.byInterface.size ++
    ", interface_connections: " ++ toString r.pins.size ++
    ", endpoint_connections: " ++ toString r.links.size ++
    ", external_endpoints: " ++ toString r.externals.size ++ " \x7d"

end Registry

end ServiceBus
