import ServiceBus.Registry.Basic

/-!
# Finding endpoints

Lookups by service, by interface and by reference. Links contribute to a service the endpoints they
lead to, unless a live endpoint holds the link's own id; a pinned interface has its pinned endpoint
alone. No order is promised for the results.
-/

namespace ServiceBus.Registry

def live (r : Registry) (ks : List EndpointId) : List Endpoint := ks.filterMap r.get?

/-- Where the links lead that start in a service at an id no live endpoint holds. -/
def linkedIds (r : Registry) (s : QualifiedName) : List EndpointId :=
  (r.links.entries.filter fun l => l.1.service = s && !r.endpoints.contains l.1).map (·.2)

/-- Adds ids that are not there yet. -/
def addMissing (ks : List EndpointId) : List EndpointId → List EndpointId
  | [] => ks
  | k :: rest => addMissing (if k ∈ ks then ks else ks ++ [k]) rest

def lookupService (r : Registry) (s : QualifiedName) : List Endpoint :=
  r.live (addMissing (r.byService.ids s) (r.linkedIds s))

def lookupInterface (r : Registry) (i : QualifiedName) : List Endpoint :=
  match r.pins.get? i with
  | some k => (r.get? k).toList
  | none => r.live (r.byInterface.ids i)

/-- The live endpoint at the end of the link that starts at an id. -/
def linked? (r : Registry) (k : EndpointId) : Option Endpoint := r.links.get? k >>= r.get?

def externalsOfService (r : Registry) (s : QualifiedName) : List Endpoint :=
  r.externals.values.filter fun e => e.service = s

def externalsOfInterface (r : Registry) (i : QualifiedName) : List Endpoint :=
  r.externals.values.filter fun e => e.implements i

/-- The live endpoint a reference designates: the one it names, if that accepts the address, or else
one of the same service that spells the address. -/
def resolve (r : Registry) (ref : Reference) : Option Endpoint :=
  let named := (r.get? ⟨ref.service, ref.element.localPart⟩).filter (·.accepts ref.address)
  named.orElse fun _ => (r.lookupService ref.service).find? (·.spells ref.address)

end ServiceBus.Registry
