import ServiceBus.Config.Basic
import ServiceBus.Toml.Parser

/-!
# Reading a configuration

`Config.ofToml?` reads what a document says and leaves the rest at its default. A section is a table
of its fields or an array of them in order; names and places that a section does not have are passed
over. A choice is a name, or a table of that name alone with nothing under it. `Config.find` reads
the first file of several and falls back on the defaults when that one cannot be used.
-/

namespace ServiceBus

namespace Config

/-! ### Values -/

/-- What a section says about a field. -/
abbrev Section := String → Option Toml

def section? (names : List String) : Toml → Option Section
  | .table ms => some fun n => ms.lookup n
  | .array xs => some fun n => (names.zip xs).lookup n
  | .datetime => some fun _ => none
  | _ => none

/-- A field's value, or its default if the section says nothing. -/
def field {α : Type} (s : Section) (name : String) (read? : Toml → Option α) (default : α) :
    Option α :=
  match s name with
  | some v => read? v
  | none => some default

def count? : Toml → Option Nat
  | .int i => if 0 ≤ i then some i.toNat else none
  | _ => none

def text? : Toml → Option String
  | .text s => some s
  | _ => none

def bool? : Toml → Option Bool
  | .bool b => some b
  | _ => none

/-- Whether there is nothing in a value. -/
def isVoid : Toml → Bool
  | .array xs => xs.isEmpty
  | .table ms => ms.isEmpty
  | _ => false

/-- One of several named things. -/
def choice? {α : Type} (names : List (String × α)) : Toml → Option α
  | .text s => names.lookup s
  | .table [(s, v)] => if isVoid v then names.lookup s else none
  | _ => none

/-! ### Sections -/

def timeouts? (c : Config) (v : Toml) : Option Config := do
  let s ← section? ["sync_send_timeout_ms", "accept_timeout_ms", "shutdown_drain_timeout_ms"] v
  let syncSend ← field s "sync_send_timeout_ms" count? c.timeouts.syncSend
  let accept ← field s "accept_timeout_ms" count? c.timeouts.accept
  let shutdownDrain ← field s "shutdown_drain_timeout_ms" count? c.timeouts.shutdownDrain
  some { c with timeouts := ⟨syncSend, accept, shutdownDrain⟩ }

def limits? (c : Config) (v : Toml) : Option Config := do
  let s ← section? ["component_queue_capacity"] v
  some { c with queueCapacity := ← field s "component_queue_capacity" count? c.queueCapacity }

def routing? (c : Config) (v : Toml) : Option Config := do
  let s ← section? ["strategy"] v
  some { c with strategy := ← field s "strategy" (choice? Strategy.names) c.strategy }

def store? (c : Config) (v : Toml) : Option Config := do
  let s ← section? ["backend", "directory", "node_id", "name"] v
  let backend ← field s "backend" (choice? Backend.names) c.backend
  let storeDirectory ← field s "directory" text? c.storeDirectory
  let nodeId ← field s "node_id" text? c.nodeId
  let storeName ← field s "name" text? c.storeName
  some { c with backend, storeDirectory, nodeId, storeName }

def tracing? (c : Config) (v : Toml) : Option Config := do
  let s ← section? ["level"] v
  some { c with logLevel := ← field s "level" text? c.logLevel }

def paths? (c : Config) (v : Toml) : Option Config := do
  let s ← section? ["log_directory", "data_directory"] v
  let logDirectory ← field s "log_directory" text? c.logDirectory
  let dataDirectory ← field s "data_directory" text? c.dataDirectory
  some { c with logDirectory, dataDirectory }

def behavior? (c : Config) (v : Toml) : Option Config := do
  let s ← section? ["enable_tracing", "persist_exchanges"] v
  let tracing ← field s "enable_tracing" bool? c.tracing
  let persistExchanges ← field s "persist_exchanges" bool? c.persistExchanges
  some { c with tracing, persistExchanges }

def sections : List (String × (Config → Toml → Option Config)) :=
  [("timeouts", timeouts?), ("limits", limits?), ("routing", routing?), ("store", store?),
    ("tracing", tracing?), ("paths", paths?), ("behavior", behavior?)]

/-! ### Documents -/

def ofToml? (dataHome : String) (v : Toml) : Option Config := do
  let s ← section? (sections.map (·.1)) v
  sections.foldlM (fun c (name, read?) => field s name (read? c) c) (standard dataHome)

def parse? (dataHome text : String) : Option Config := Toml.parse? text >>= ofToml? dataHome

/-- What stands in a place where a configuration may be. -/
inductive Candidate where
  | missing
  | file (content : Document)
  | directory

/-- Reads the first candidate that is there; one that cannot be read counts as empty. -/
def find (dataHome : String) (places : List Candidate) : Config :=
  let found := places.find? fun
    | .missing => false
    | _ => true
  match found with
  | some (.file content) => (content.text? >>= parse? dataHome).getD (standard dataHome)
  | _ => standard dataHome

end Config

end ServiceBus
