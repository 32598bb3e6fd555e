import ServiceBus.Bus.Selector
import ServiceBus.Store.Open

/-!
# Configuration

A `Config` has a section for each concern of a container. Every value has a default; those of the
paths lie under the directory for application data.
-/

namespace ServiceBus

/-- Time limits in milliseconds. -/
structure Timeouts where
  /-- How long a synchronous send waits for the reply. -/
  syncSend : Nat
  /-- How long an accept waits by default; zero is for ever. -/
  accept : Nat
  /-- How long a shutdown waits for what is in flight. -/
  shutdownDrain : Nat
  deriving DecidableEq, Repr

structure Config where
  timeouts : Timeouts
  /-- How many exchanges a component's queue holds. -/
  queueCapacity : Nat
  strategy : Strategy
  backend : Backend
  /-- Where stores keep their entries; empty for the default place. -/
  storeDirectory : String
  nodeId : String
  /-- The name of the store of exchanges in flight. -/
  storeName : String
  logLevel : String
  logDirectory : String
  dataDirectory : String
  /-- Whether a log is written. -/
  tracing : Bool
  /-- Whether every exchange is persisted. -/
  persistExchanges : Bool
  deriving DecidableEq, Repr

namespace Config

def standard (dataHome : String) : Config :=
  { timeouts := ⟨30000, 0, 10000⟩, queueCapacity := 256, strategy := .first, backend := .memory
    storeDirectory := "", nodeId := "node", storeName := "exchanges", logLevel := "info"
    logDirectory := Path.join dataHome "logs", dataDirectory := dataHome
    tracing := true, persistExchanges := false }

/-- The default wait of an accept; none is for ever. -/
def acceptTimeout (c : Config) : Option Nat :=
  if c.timeouts.accept = 0 then none else some c.timeouts.accept

def storesPath (c : Config) : String :=
  if c.storeDirectory = "" then Path.join c.dataDirectory "stores" else c.storeDirectory

def factory (c : Config) : StoreFactory := ⟨c.backend, c.storesPath, c.nodeId, .empty⟩

def toJson (c : Config) : Json :=
  .object
    [("timeouts", .object [("sync_send_timeout_ms", .nat c.timeouts.syncSend),
      ("accept_timeout_ms", .nat c.timeouts.accept),
      ("shutdown_drain_timeout_ms", .nat c.timeouts.shutdownDrain)]),
     ("limits", .object [("component_queue_capacity", .nat c.queueCapacity)]),
     ("routing", .object [("strategy", .text c.strategy.display)]),
     ("store", .object [("backend", .text c.backend.display),
      ("directory", .text c.storeDirectory), ("node_id", .text c.nodeId),
      ("name", .text c.storeName)]),
     ("tracing", .object [("level", .text c.logLevel)]),
     ("paths", .object [("log_directory", .text c.logDirectory),
      ("data_directory", .text c.dataDirectory)]),
     ("behavior", .object [("enable_tracing", .bool c.tracing),
      ("persist_exchanges", .bool c.persistExchanges)])]

def diagnostic (c : Config) : String :=
  "TimeoutConfig \x7b sync_send_timeout_ms: " ++ toString c.timeouts.syncSend ++
    ", accept_timeout_ms: " ++ toString c.timeouts.accept ++
    ", shutdown_drain_timeout_ms: " ++ toString c.timeouts.shutdownDrain ++
    " \x7d LimitsConfig \x7b component_queue_capacity: " ++ toString c.queueCapacity ++
    " \x7d RoutingConfig \x7b strategy: " ++ c.strategy.diagnostic ++
    " \x7d BehaviorConfig \x7b enable_tracing: " ++ toString c.tracing ++
    ", persist_exchanges: " ++ toString c.persistExchanges ++ " \x7d"

end Config

end ServiceBus
