import ServiceBus.Exchange.Basic
import ServiceBus.Store.Basic
import ServiceBus.Text.Duration

/-!
# Why the bus does not deliver

`RouterError` is what senders and acceptors are told when a call does not succeed. `chain` is the
error with what caused it, outermost first.
-/

namespace ServiceBus

inductive RouterError where
  /-- No live endpoint matches the exchange's address. -/
  | noRoute (id address : String)
  /-- The provider's processor refused the exchange. -/
  | rejected (id reason : String)
  /-- Nothing came in time, measured in milliseconds; an accept waits for no exchange in
  particular. -/
  | timeout (id : Option String) (waited : Nat)
  | notConnected (c : ComponentId)
  | shuttingDown
  | exchange (e : ExchangeError)
  | store (e : StoreError)
  deriving DecidableEq, Repr

namespace RouterError

def message : RouterError → String
  | .noRoute id address => "No route for exchange " ++ id ++ " addressed to " ++ address
  | .rejected id reason => "Exchange " ++ id ++ " rejected by provider: " ++ reason
  | .timeout (some id) waited =>
    "Timed out after " ++ Duration.display waited ++ " waiting for exchange " ++ id
  | .timeout none waited =>
    "Timed out after " ++ Duration.display waited ++ " waiting for an exchange"
  | .notConnected c => "Component '" ++ c.name ++ "' is not connected to the router"
  | .shuttingDown => "Router is shutting down"
  | .exchange e => e.message
  | .store e => "Failed to persist exchange: " ++ e.message

/-- The messages of what caused the error, nearest first. -/
def causes : RouterError → List String
  | .exchange e => [e.message]
  | .store e => e.chain
  | _ => []

def chain (e : RouterError) : List String := e.message :: e.causes

def isNoRoute : RouterError → Bool
  | .noRoute .. => true
  | _ => false

end RouterError

end ServiceBus
