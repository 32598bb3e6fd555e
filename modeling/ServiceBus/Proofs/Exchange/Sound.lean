import ServiceBus.Exchange.Snapshot
import ServiceBus.Proofs.Exchange.Moves

/-!
# What holds of an exchange all its life

`Sound x` ties hops, owner, messages and status of an exchange together. A new exchange is sound, and
every move keeps it (`Sound.moves`); restoring an exchange from its own snapshot may lose its
endpoints, which `Sound` does not speak of. So an exchange that was built is sound after any number
of calls and restarts (`sound_afterAll`).
-/

namespace ServiceBus.Exchange
variable {x y : Exchange} {c : Change}

/-- What holds of an exchange that was built, whatever has happened to it since. -/
structure Sound (x : Exchange) : Prop where
  hops_le : x.hops ≤ 2
  owner_iff : x.owner = .provider ↔ x.hops = 1
  /-- Only a request is sent. -/
  input_sent : 1 ≤ x.hops → x.input.isSome = true
  one_reply : x.output = none ∨ x.fault = none
  output_allowed : x.output.isSome = true → x.pattern = .inOut
  fault_allowed : x.fault.isSome = true → x.pattern = .inOut ∨ x.pattern = .robustInOnly
  /-- Only what was sent is answered. -/
  reply_sent : x.hasReply = true → 1 ≤ x.hops
  /-- Only an answer comes back. -/
  reply_back : x.hops = 2 → x.hasReply = true
  error_iff : x.error.isSome = true ↔ x.status = .error
  done_request : x.status = .done → x.pattern ≠ .inOut → x.input.isSome = true
  done_reply : x.status = .done → x.pattern = .inOut → x.hasReply = true

theorem hasReply_eq_false_iff : x.hasReply = false ↔ x.output = none ∧ x.fault = none := by
  simp [hasReply]

namespace Sound

theorem build (d : Draft) (id : String) : (d.build id).Sound where
  hops_le := Nat.zero_le 2
  owner_iff := by simp [Draft.build]
  input_sent h := absurd h (Nat.not_succ_le_zero 0)
  one_reply := .inl rfl
  output_allowed h := by cases h
  fault_allowed h := by cases h
  reply_sent h := by cases h
  reply_back h := by cases h
  error_iff := by simp [Draft.build]
  done_request h := by cases h
  done_reply h := by cases h

theorem publish (h : x.Sound) : x.publish.Sound := { h with }

/-- The first reply: the provider holds the exchange, so it has been sent once. -/
private theorem hops_eq_one (h : x.Sound) (owner : x.owner = .provider) : x.hops = 1 :=
  h.owner_iff.1 owner

theorem setOut (h : x.Sound) (m : Message) (pattern : x.pattern.allowsOut = true)
    (owner : x.owner = .provider) (reply : x.hasReply = false) :
    Sound { x with output := some m } := by
  have hops := h.hops_eq_one owner
  have hf : x.fault = none := (hasReply_eq_false_iff.1 reply).2
  have hp : x.pattern = .inOut := by
    cases hx : x.pattern <;> simp_all [Pattern.allowsOut]
  exact { h with
    one_reply := .inr hf
    output_allowed := fun _ => hp
    reply_sent := fun _ => Nat.le_of_eq hops.symm
    reply_back := fun _ => rfl
    done_reply := fun _ _ => rfl }

theorem setFault (h : x.Sound) (f : Fault) (pattern : x.pattern.allowsFault = true)
    (owner : x.owner = .provider) (reply : x.hasReply = false) :
    Sound { x with fault := some f } := by
  have hops := h.hops_eq_one owner
  have ho : x.output = none := (hasReply_eq_false_iff.1 reply).1
  have hp : x.pattern = .inOut ∨ x.pattern = .robustInOnly := by
    cases hx : x.pattern <;> simp_all [Pattern.allowsFault]
  have hr : hasReply { x with fault := some f } = true := by simp [hasReply]
  exact { h with
    one_reply := .inl ho
    fault_allowed := fun _ => hp
    reply_sent := fun _ => Nat.le_of_eq hops.symm
    reply_back := fun _ => hr
    done_reply := fun _ _ => hr }

theorem done (h : x.Sound) (ha : x.status = .active) (satisfied : x.isSatisfied = true) :
    Sound { x with status := .done } := by
  have he : x.error.isSome ≠ true := fun he => by
    have := h.error_iff.1 he
    rw [ha] at this; cases this
  refine { h with error_iff := ⟨fun e => absurd e he, fun e => by cases e⟩
                  done_request := fun _ hp => ?_, done_reply := fun _ hp => ?_ }
  · cases hx : x.pattern with
    | inOut => exact absurd hx hp
    | inOnly | robustInOnly => simpa [isSatisfied, hx] using satisfied
  · have hx : x.pattern = .inOut := hp
    have hr : x.hasReply = true := by simpa [isSatisfied, hx] using satisfied
    exact hr

theorem fail (h : x.Sound) (cause : String) :
    Sound { x with status := .error, error := some cause } :=
  { h with
    error_iff := ⟨fun _ => rfl, fun _ => rfl⟩
    done_request := fun e => by cases e
    done_reply := fun e => by cases e }

theorem dispatch (h : x.Sound) (t : Endpoint) (input : x.input.isSome = true) :
    Sound { x with target := some t, owner := .provider, hops := 1 } where
  hops_le := Nat.le_succ 1
  owner_iff := ⟨fun _ => rfl, fun _ => rfl⟩
  input_sent _ := input
  one_reply := h.one_reply
  output_allowed := h.output_allowed
  fault_allowed := h.fault_allowed
  reply_sent _ := Nat.le_refl 1
  reply_back e := by cases e
  error_iff := h.error_iff
  done_request := h.done_request
  done_reply := h.done_reply

theorem handBack (h : x.Sound) (hops : x.hops = 1) (reply : x.hasReply = true) :
    Sound { x with owner := .consumer, hops := 2 } where
  hops_le := Nat.le_refl 2
  owner_iff := by simp
  input_sent _ := h.input_sent (Nat.le_of_eq hops.symm)
  one_reply := h.one_reply
  output_allowed := h.output_allowed
  fault_allowed := h.fault_allowed
  reply_sent _ := Nat.le_succ 1
  reply_back _ := reply
  error_iff := h.error_iff
  done_request := h.done_request
  done_reply := h.done_reply

theorem moves (h : x.Sound) (ha : x.status = .active) (hm : Moves x c y) : y.Sound := by
  cases hm with
  | setProperty name v => exact { h with }
  | setIn m owner hops => exact { h with input_sent := fun _ => rfl, done_request := fun _ _ => rfl }
  | setOut m pattern owner reply => exact h.setOut m pattern owner reply
  | setFault f pattern owner reply => exact h.setFault f pattern owner reply
  | done satisfied => exact h.done ha satisfied
  | fail cause => exact h.fail cause
  | dispatch t owner hops input => exact h.dispatch t input
  | handBack owner hops reply => exact h.handBack hops reply

theorem change (h : x.Sound) (c : Change) : (x.change c).1.Sound := by
  rcases change_fst_cases x c with e | ⟨ha, y, hy, e⟩
  · rw [e]; exact h
  · rw [e]; exact (h.moves ha hy).publish

theorem restore (h : x.Sound) (r : Registry) : (x.snapshot.restore r).Sound := { h with }

end Sound

/-! ### Calls and restarts -/

/-- What happens to an exchange: somebody attempts a change, or it is written down and found again
against a registry. -/
inductive Happening where
  | change (c : Change)
  | restore (r : Registry)

/-- The exchange after it, the change refused or not. -/
def after (x : Exchange) : Happening → Exchange
  | .change c => (x.change c).1
  | .restore r => x.snapshot.restore r

/-- The exchange after all that has happened. -/
def afterAll (x : Exchange) (l : List Happening) : Exchange := l.foldl after x

theorem Sound.after (h : x.Sound) (e : Happening) : (x.after e).Sound := by
  cases e with
  | change c => exact h.change c
  | restore r => exact h.restore r

/-- A built exchange is sound after any run of calls, refused or not, and restarts. -/
theorem sound_afterAll (d : Draft) (id : String) (l : List Happening) :
    ((d.build id).afterAll l).Sound :=
  List.foldlRecOn l after (Sound.build d id) fun _ h e _ => h.after e

end ServiceBus.Exchange
