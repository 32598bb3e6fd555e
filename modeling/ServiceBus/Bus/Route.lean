import ServiceBus.Bus.Basic

/-!
# Finding the provider of an exchange

An exchange names its provider by endpoint, by service, by interface or by the last two together.
`Bus.candidates` are the live endpoints that the address stands for; of these only providers whose
component is connected are routable, and the selector picks among them. An endpoint that is named is
not subject to selection.
-/

namespace ServiceBus.Bus

def isRoutable (b : Bus) (e : Endpoint) : Bool :=
  e.role = .provider && b.components.contains e.component

/-- The live endpoint that a named one stands for: itself, if the same component still holds its id,
or the end of the link that starts at the id, if nobody holds it. -/
def named? (b : Bus) (target : Endpoint) : Option Endpoint :=
  match b.registry.get? target.id with
  | some live => if live.component = target.component then some live else none
  | none => b.registry.linked? target.id

/-- The live endpoints of a service, of an interface, or of a service with an interface. -/
def addressed (b : Bus) : Option QualifiedName → Option QualifiedName → List Endpoint
  | some s, some i => (b.registry.lookupService s).filter (·.implements i)
  | some s, none => b.registry.lookupService s
  | none, some i => b.registry.lookupInterface i
  | none, none => []

def candidates (b : Bus) (e : Exchange) : List Endpoint :=
  match e.target with
  | some target => (b.named? target).toList
  | none => b.addressed e.service e.interface

/-- The routable endpoint that an exchange goes to, and the selector after the choice. -/
def choose (b : Bus) (e : Exchange) : Selector × Option Endpoint :=
  let routable := (b.candidates e).filter b.isRoutable
  match e.target with
  | some _ => (b.selector, routable.head?)
  | none => b.selector.select routable

def describeAddress (e : Exchange) : String :=
  match e.target, e.service, e.interface with
  | some t, _, _ => "endpoint " ++ t.id.display
  | none, some s, some i => "service " ++ s.display ++ " with interface " ++ i.display
  | none, some s, none => "service " ++ s.display
  | none, none, some i => "interface " ++ i.display
  | none, none, none => "no address"

def resolveTarget (b : Bus) (x : Nat) : Bus × Except RouterError Endpoint :=
  let e := b.exchange x
  match b.choose e with
  | (selector, some target) => ({ b with selector }, .ok target)
  | (selector, none) =>
    let address := describeAddress e
    ({ b with selector }.failQuietly x ("no route to " ++ address), .error (.noRoute e.id address))

end ServiceBus.Bus
