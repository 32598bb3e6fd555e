import ServiceBus.Store.Basic
import ServiceBus.Json.Basic

/-!
# Stores in memory

A store in memory answers at once. It can be told to refuse calls, so that one can try out what
happens when a store fails.
-/

namespace ServiceBus

inductive StoreCall where
  | put (id : String) (data : Json)
  | get (id : String)
  | remove (id : String)
  deriving DecidableEq

/-- The kinds of calls that can be refused. -/
inductive CallKind where
  | put
  | get
  | remove
  deriving DecidableEq, Repr

/-- Entries by id, and the calls that are refused. -/
structure Memory where
  entries : Table String Json
  refused : Table CallKind String

namespace Memory

/-- Memory without entries, which refuses nothing. -/
def empty : Memory := ⟨.empty, .empty⟩

instance : Inhabited Memory := ⟨empty⟩

/-- Refuses calls of a kind with a message, or no longer. -/
def refuse (m : Memory) (k : CallKind) : Option String → Memory
  | some message => { m with refused := m.refused.insert k message }
  | none => { m with refused := m.refused.erase k }

/-- Answers a call; only `get` has a value to answer with. -/
def answer (m : Memory) : StoreCall → Memory × Except StoreError (Option Json)
  | .put id data =>
    match m.refused.get? .put with
    | some message => (m, .error (.write id (.other message)))
    | none => ({ m with entries := m.entries.insert id data }, .ok none)
  | .get id =>
    match m.refused.get? .get with
    | some message => (m, .error (.io (.other message)))
    | none =>
      match m.entries.get? id with
      | some data => (m, .ok (some data))
      | none => (m, .error (.notFound id))
  | .remove id =>
    match m.refused.get? .remove with
    | some message => (m, .error (.io (.other message)))
    | none => ({ m with entries := m.entries.erase id }, .ok none)

end Memory

end ServiceBus
