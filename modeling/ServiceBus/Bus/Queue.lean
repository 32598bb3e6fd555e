/-!
# Queues of components

A `PullQueue` holds exchanges, by number, until the component accepts them. Senders who find it full
stand in line; a slot that comes free is granted to the first of them, who then uses it. Acceptors
stand in line too, and only the first may take. Who leaves a line makes room for the next. Everyone
in a line is known by a ticket.
-/

namespace ServiceBus

/-- Exchanges on their way to a component that accepts them. -/
structure PullQueue where
  capacity : Nat
  /-- The exchanges, oldest first. -/
  items : List Nat
  /-- Senders who have a slot and have not used it yet. -/
  granted : List Nat
  /-- Senders in line for a slot. -/
  senders : List Nat
  /-- Acceptors in line. -/
  acceptors : List Nat
  /-- Whether the component has been disconnected from this queue. -/
  closed : Bool
  deriving DecidableEq, Repr, Inhabited

namespace PullQueue

def new (capacity : Nat) : PullQueue := ⟨capacity, [], [], [], [], false⟩

/-- Whether a slot is free that nobody has been granted. -/
def hasRoom (q : PullQueue) : Bool := decide (q.items.length + q.granted.length < q.capacity)

/-- Grants a free slot to the first sender in line. -/
def grant (q : PullQueue) : PullQueue :=
  match q.senders with
  | [] => q
  | t :: rest => if q.hasRoom then { q with granted := q.granted ++ [t], senders := rest } else q

/-- Puts an exchange in, if nobody is in line and a slot is free. -/
def offer? (q : PullQueue) (x : Nat) : Option PullQueue :=
  if q.senders.isEmpty && q.hasRoom then some { q with items := q.items ++ [x] } else none

def enlist (q : PullQueue) (ticket : Nat) : PullQueue := { q with senders := q.senders ++ [ticket] }

/-- Puts an exchange into the slot that a sender has been granted. -/
def use? (q : PullQueue) (ticket x : Nat) : Option PullQueue :=
  if ticket ∈ q.granted then
    some { q with granted := q.granted.erase ticket, items := q.items ++ [x] }
  else none

/-- Takes a sender out of line, and back the slot if one was granted. -/
def withdraw (q : PullQueue) (ticket : Nat) : PullQueue :=
  grant { q with granted := q.granted.erase ticket, senders := q.senders.erase ticket }

def joinLine (q : PullQueue) (ticket : Nat) : PullQueue :=
  if ticket ∈ q.acceptors then q else { q with acceptors := q.acceptors ++ [ticket] }

def leaveLine (q : PullQueue) (ticket : Nat) : PullQueue :=
  { q with acceptors := q.acceptors.erase ticket }

/-- Whether it is an acceptor's turn to take. -/
def mayTake (q : PullQueue) (ticket : Nat) : Bool := q.acceptors.head? = some ticket

def take? (q : PullQueue) : Option (Nat × PullQueue) :=
  match q.items with
  | [] => none
  | x :: rest => some (x, grant { q with items := rest })

/-! ### What is in the queue -/

@[simp] theorem items_grant (q : PullQueue) : q.grant.items = q.items := by
  unfold grant
  split
  · rfl
  · split <;> rfl

@[simp] theorem items_enlist (q : PullQueue) (ticket : Nat) : (q.enlist ticket).items = q.items :=
  rfl

@[simp] theorem items_withdraw (q : PullQueue) (ticket : Nat) :
    (q.withdraw ticket).items = q.items := by simp [withdraw]

@[simp] theorem items_joinLine (q : PullQueue) (ticket : Nat) :
    (q.joinLine ticket).items = q.items := by
  unfold joinLine
  split <;> rfl

@[simp] theorem items_leaveLine (q : PullQueue) (ticket : Nat) :
    (q.leaveLine ticket).items = q.items := rfl

theorem items_of_offer? {q p : PullQueue} {x : Nat} (h : q.offer? x = some p) :
    p.items = q.items ++ [x] := by
  unfold offer? at h
  split at h
  · injection h with h
    rw [← h]
  · cases h

theorem items_of_use? {q p : PullQueue} {ticket x : Nat} (h : q.use? ticket x = some p) :
    p.items = q.items ++ [x] := by
  unfold use? at h
  split at h
  · injection h with h
    rw [← h]
  · cases h

theorem items_of_take? {q p : PullQueue} {x : Nat} (h : q.take? = some (x, p)) :
    q.items = x :: p.items := by
  unfold take? at h
  split at h
  · cases h
  · next y rest hq =>
    injection h with h
    injection h with hx hp
    rw [hq, ← hx, ← hp, items_grant]

end PullQueue

end ServiceBus
