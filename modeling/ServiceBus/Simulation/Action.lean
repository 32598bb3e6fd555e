import ServiceBus.Bus.Finish
import ServiceBus.Bus.Send
import ServiceBus.Config.Basic

/-!
# What parties do, and what they are told

A processor's behaviour is a script: a list of steps, each an `Action` on the bus, with the exchange
it was given under the name `$`. Callers act by the same actions. Each action is answered by an
`Answer` or a `Failure`. Things made along the way are known by names that the actions give them.
-/

namespace ServiceBus

/-- An action in a script. -/
structure Step (α : Type) where
  /-- What the action is called in a log. -/
  label : String
  /-- Whether a failure ends the script. -/
  attempt : Bool
  action : α

inductive RegistryAction where
  | register (e : Endpoint)
  | registerExternal (e : Endpoint)
  | unregister (c : ComponentId) (k : EndpointId)
  | unregisterComponent (c : ComponentId)
  | unregisterExternal (k : EndpointId)
  | get (k : EndpointId)
  | lookupService (s : QualifiedName)
  | lookupInterface (i : QualifiedName)
  | ofComponent (c : ComponentId)
  | externalsOfService (s : QualifiedName)
  | externalsOfInterface (i : QualifiedName)
  | pin (i : QualifiedName) (k : EndpointId)
  | unpin (i : QualifiedName)
  | link (source target : EndpointId)
  | unlink (source : EndpointId)
  | linked (source : EndpointId)
  | resolve (r : Reference)
  | resolveDocument (d : Document)
  /-- The reference of a registered endpoint. -/
  | reference (k : EndpointId)
  | size
  | clear
  | diagnostic
  /-- Follows the registry's events from now on. -/
  | subscribe (name : String)
  /-- What has happened since the last time. -/
  | events (name : String) (sorted : Bool)

inductive EndpointChoice where
  /-- As it is described. -/
  | described (e : Endpoint)
  /-- As it is registered. -/
  | registered (k : EndpointId)

/-- What is decided about a new exchange. -/
structure NewExchange where
  pattern : Pattern
  synchronous : Bool
  persistent : Bool
  service : Option QualifiedName
  interface : Option QualifiedName
  operation : Option QualifiedName
  target : Option EndpointChoice
  source : Option EndpointChoice
  input : Option Message
  properties : Properties

inductive ExchangeAction where
  | create (name : String) (n : NewExchange)
  | setIn (x : String) (m : Message)
  | setOut (x : String) (m : Message)
  | setFault (x : String) (f : Fault)
  /-- Answers with the request. -/
  | echo (x : String)
  | setProperty (x name : String) (v : Json)
  | done (x : String)
  | fail (x cause : String)
  | property (x name : String)
  | snapshot (x : String)
  | diagnostic (x : String)
  | view (x : String)
  /-- The exchange of a snapshot's document. -/
  | restore (name : String) (d : Document)
  /-- The exchange of another one's snapshot. -/
  | restoreOf (name x : String)
  | same (a b : String)

inductive EntryId where
  | literal (id : String)
  /-- The id behind the name of an exchange or an entry. -/
  | behind (name : String)

inductive BusAction where
  | connectQueue (c : ComponentId)
  | disconnect (c : ComponentId)
  | disconnectAll
  | isConnected (c : ComponentId)
  | send (x : String)
  | respond (x : String)
  | watch (x : String) (g : Goal) (limit : Option Nat)
  | accept (c : ComponentId) (name : Option String) (limit : Option Nat)
  /-- The persisted exchange of an id. -/
  | retrieve (id : EntryId) (name : String)
  | inFlight
  | beginShutdown
  | stop
  | isClosing
  | drain (limit : Nat)
  | failInFlight (cause : String)
  | strategy
  | diagnostic
  | sleep (ms : Nat)
  | log (c : ComponentId)

inductive StoreChoice where
  | memory (name : String)
  | file (name : String)
  | clustered (name node : String)

inductive Reading where
  /-- As it is stored. -/
  | value
  /-- As a user with a number of visits. -/
  | session
  /-- As a count. -/
  | count
  /-- As a list of texts. -/
  | texts
  /-- As a snapshot. -/
  | snapshot
  deriving DecidableEq

inductive Place where
  /-- Of a store. -/
  | ofStore (name : String)
  /-- Below the home directory. -/
  | named (path : String)

inductive StoreAction where
  | openStore (name : String) (s : StoreChoice)
  | factory (name : String) (backend : Backend) (node : String)
  | factoryOpen (factory store name : String)
  | factoryDiagnostic (factory : String)
  | same (a b : String)
  | put (s : String) (id : EntryId) (data : Json)
  | putNew (s name : String) (data : Json)
  | load (s : String) (id : EntryId) (r : Reading)
  | remove (s : String) (id : EntryId)
  | nextId (s : String)
  | name (s : String)
  | features (s : String) (names : List String)
  | size (s : String)
  | diagnostic (s : String)
  /-- Refuses calls from now on, or no longer. -/
  | refuse (s : String) (k : CallKind) (message : Option String)
  | files (p : Place)
  | replaceContent (p : Place) (file : String) (content : Document)
  | contentOf (p : Place) (file : String)
  | makeDirectory (p : Place) (file : String)
  /-- Moves a store's directory away and puts a file or nothing in its place. -/
  | break (s : String) (missing : Bool)
  /-- Moves the directory back. -/
  | repair (s : String)

inductive ContainerAction where
  | deactivateComponent (c : ComponentId)
  | openStore (store name : String)
  | info
  | diagnostic
  | shutdown

inductive Action where
  | registry (a : RegistryAction)
  | exchange (a : ExchangeAction)
  | bus (a : BusAction)
  | store (a : StoreAction)
  | container (a : ContainerAction)
  /-- Connects a component whose processor follows a script. -/
  | connectProcessor (c : ComponentId) (script : List (Step Action))
  /-- Does something in the background. -/
  | spawn (name : String) (s : Step Action)
  /-- What came of something in the background. -/
  | join (name : String)
  /-- Does one thing after the other, round by round, and tallies the answers. -/
  | sequence (steps : List (Step Action))
  /-- Ends the script with an error, outermost message first. -/
  | refuse (chain : List String)
  /-- Ends the script by a panic. -/
  | panic (message : String)
  /-- Ends the script. -/
  | finish

abbrev Script := List (Step Action)

def processorDiagnostic : String := "FnProcessor \x7b .. \x7d"

/-! ### Answers -/

inductive Failure where
  | registry (e : RegistryError)
  | reference (e : ReferenceError)
  | exchange (e : ExchangeError)
  | router (e : RouterError)
  | store (e : StoreError)
  /-- A document cannot be read. -/
  | unreadable
  /-- A name stands for nothing. -/
  | unknown
  /-- The call does not come back. -/
  | blocked
  deriving DecidableEq

/-- The messages of a failure and its causes, outermost first. -/
def Failure.chain : Failure → List String
  | .registry e => [e.message]
  | .reference e => [e.message]
  | .exchange e => [e.message]
  | .router e => e.chain
  | .store e => e.chain
  | .unreadable => ["unreadable document"]
  | .unknown => ["unknown name"]
  | .blocked => ["blocked"]

inductive Answer where
  | nothing
  | flag (b : Bool)
  | count (n : Nat)
  | text (s : String)
  | texts (l : List String)
  | value (v : Json)
  /-- A property, if it is set. -/
  | property (v : Option Json)
  | endpoint (e : Option Endpoint)
  | endpoints (l : List Endpoint)
  | status (s : Status)
  /-- How much a table holds. -/
  | size (n : Nat)
  /-- A reference, and whether it resolves to its own endpoint. -/
  | reference (r : Option (Reference × Bool))
  /-- What stands in front of the variable part of a new id. -/
  | created (stem : String)
  /-- The same, of an id that is not used. -/
  | nextId (stem : String)
  | view (x : Exchange)
  /-- An exchange: its id, other names it has, and whether it is as it was written down. -/
  | found (id : String) (names : List String) (unchanged : Option Bool)
  /-- Whether two names stand for one exchange, and whether for one id. -/
  | comparison (sameExchange sameId : Bool)
  | features (own : List StoreFeature) (has : List Bool)
  | session (user : String) (visits : Nat)
  | info (c : Config) (store : String) (strategy : Strategy)
  /-- Not answered yet. -/
  | pending
  | joined (r : Except Failure Answer)
  /-- How many of a sequence failed, and the last answer. -/
  | tally (failed : Nat) (last : Option (Except Failure Answer))
  /-- Exchange id, label and answer of each step that a component's scripts took. -/
  | log (entries : List (String × String × Except Failure Answer))

abbrev Result := Except Failure Answer

end ServiceBus
