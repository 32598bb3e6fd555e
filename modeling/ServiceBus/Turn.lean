/-!
# Turns

A call that may have to wait is a value. When it is its turn it either comes to an end or leaves the
value that waits on, so whoever schedules calls sees all of their state.
-/

namespace ServiceBus

/-- What a call is after its turn: ended, with a result, or waiting. -/
inductive Turn (γ ρ : Type) where
  | ended (r : ρ)
  | waiting (c : γ)
  deriving DecidableEq, Repr

namespace Turn

variable {γ γ' ρ ρ' : Type}

def map (f : γ → γ') (g : ρ → ρ') : Turn γ ρ → Turn γ' ρ'
  | ended r => ended (g r)
  | waiting c => waiting (f c)

@[simp] theorem map_ended (f : γ → γ') (g : ρ → ρ') (r : ρ) :
    (ended r).map f g = ended (g r) := rfl

@[simp] theorem map_waiting (f : γ → γ') (g : ρ → ρ') (c : γ) :
    (waiting c).map f g = waiting (f c) := rfl

end Turn

end ServiceBus
