import ServiceBus.Endpoint.Basic

/-!
# Choosing among endpoints

A `Selector` picks one of several endpoints that match an exchange. Candidates come in any order, so
they are put in the order of their ids first; rotation counts every selection, whatever the
candidates are. A random pick takes the next of the numbers that the selector is given to draw.
-/

namespace ServiceBus

inductive Strategy where
  /-- The first in the order of ids. -/
  | first
  /-- One after the other in the order of ids. -/
  | roundRobin
  /-- Any. -/
  | random
  deriving DecidableEq, Repr, Inhabited

namespace Strategy

def display : Strategy → String
  | .first => "first"
  | .roundRobin => "round_robin"
  | .random => "random"

def diagnostic : Strategy → String
  | .first => "First"
  | .roundRobin => "RoundRobin"
  | .random => "Random"

def names : List (String × Strategy) :=
  [("first", .first), ("round_robin", .roundRobin), ("random", .random)]

def decode : Decoder Strategy := .choice names

end Strategy

/-- A strategy and what it has to remember. -/
structure Selector where
  strategy : Strategy
  /-- How many times rotation has selected, modulo `Selector.period`. -/
  cursor : Nat
  /-- What is drawn for the random picks to come, one number for each. -/
  draws : Nat → Nat
  deriving Inhabited

namespace Selector

def new (s : Strategy) (draws : Nat → Nat) : Selector := ⟨s, 0, draws⟩

/-- The number of selections after which the cursor starts again. -/
def period : Nat := 0x10000000000000000

/-- The position to pick among `n` candidates in order. -/
def position (s : Selector) (n : Nat) : Nat :=
  match s.strategy with
  | .first => 0
  | .roundRobin => s.cursor % n
  | .random => s.draws 0 % n

def advance (s : Selector) : Selector :=
  match s.strategy with
  | .first => s
  | .roundRobin => { s with cursor := (s.cursor + 1) % period }
  | .random => { s with draws := fun k => s.draws (k + 1) }

def select (s : Selector) (candidates : List Endpoint) : Selector × Option Endpoint :=
  if candidates.isEmpty then (s, none)
  else (s.advance, (sortBy Endpoint.id candidates)[s.position candidates.length]?)

end Selector

end ServiceBus
