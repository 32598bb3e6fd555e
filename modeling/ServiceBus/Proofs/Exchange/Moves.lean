import ServiceBus.Exchange.Basic

/-!
# What changes are allowed and what they write

`Moves x c y`: an active exchange `x` allows the change `c`, which writes `y`. Every change checks
before it writes (`edit_cases`), so there are only two kinds of outcome of `Exchange.change`
(`change_cases`): a refusal that leaves the exchange as it was, or a move that is published.
-/

namespace ServiceBus

@[simp] theorem Status.isTerminal_eq_false_iff {s : Status} :
    s.isTerminal = false ↔ s = .active := by
  cases s <;> simp [isTerminal]

theorem Status.isTerminal_iff {s : Status} : s.isTerminal = true ↔ s ≠ .active := by
  cases s <;> simp [isTerminal]

namespace Exchange
variable {x y : Exchange} {c : Change}

theorem isUnsent_iff : x.isUnsent = true ↔ x.owner = .consumer ∧ x.hops = 0 := by
  simp [isUnsent]

theorem isDelivered_iff : x.isDelivered = true ↔ x.owner = .provider ∧ x.hops = 1 := by
  simp [isDelivered]

theorem replyReady_iff :
    x.replyReady = true ↔ x.status = .active ∧ x.isDelivered = true ∧ x.hasReply = true := by
  simp [replyReady, and_assoc]

theorem replyRefusal?_eq_none_iff :
    x.replyRefusal? = none ↔ x.owner = .provider ∧ x.hasReply = false := by
  unfold replyRefusal?
  split
  · next h => simp [h]
  · next h =>
    have ho : x.owner = .provider := Decidable.not_not.1 h
    split <;> simp_all

/-- The change `c` is allowed on `x`, apart from its having ended, and writes `y`. -/
inductive Moves (x : Exchange) : Change → Exchange → Prop where
  | setProperty (name : String) (v : Json) :
    Moves x (.setProperty name v) { x with properties := Json.insert name v x.properties }
  | setIn (m : Message) (owner : x.owner = .consumer) (hops : x.hops = 0) :
    Moves x (.setIn m) { x with input := some m }
  | setOut (m : Message) (pattern : x.pattern.allowsOut = true) (owner : x.owner = .provider)
    (reply : x.hasReply = false) : Moves x (.setOut m) { x with output := some m }
  | setFault (f : Fault) (pattern : x.pattern.allowsFault = true) (owner : x.owner = .provider)
    (reply : x.hasReply = false) : Moves x (.setFault f) { x with fault := some f }
  | done (satisfied : x.isSatisfied = true) : Moves x .done { x with status := .done }
  | fail (cause : String) :
    Moves x (.fail cause) { x with status := .error, error := some cause }
  | dispatch (t : Endpoint) (owner : x.owner = .consumer) (hops : x.hops = 0)
    (input : x.input.isSome = true) :
    Moves x (.dispatch t) { x with target := some t, owner := .provider, hops := 1 }
  | handBack (owner : x.owner = .provider) (hops : x.hops = 1) (reply : x.hasReply = true) :
    Moves x .handBack { x with owner := .consumer, hops := 2 }

theorem Moves.edit (h : Moves x c y) : x.edit c = (y, .ok ()) := by
  cases h with
  | setProperty | fail => rfl
  | setIn m owner hops => simp [Exchange.edit, isUnsent, owner, hops]
  | setOut m pattern owner reply | setFault m pattern owner reply =>
    have hr := replyRefusal?_eq_none_iff.2 ⟨owner, reply⟩
    simp [Exchange.edit, pattern, hr]
  | done satisfied => simp [Exchange.edit, satisfied]
  | dispatch t owner hops input =>
    have hi : x.input ≠ none := Option.isSome_iff_ne_none.1 input
    simp [Exchange.edit, isUnsent, owner, hops, hi]
  | handBack owner hops reply => simp [Exchange.edit, isDelivered, owner, hops, reply]

/-- An edit is a move, or it is refused with nothing written: every change checks before it
writes. -/
theorem edit_cases (x : Exchange) (c : Change) :
    (∃ r, x.edit c = (x, .error r)) ∨ ∃ y, Moves x c y ∧ x.edit c = (y, .ok ()) := by
  suffices h : (∃ r, x.edit c = (x, .error r)) ∨ ∃ y, Moves x c y by
    rcases h with h | ⟨y, h⟩
    · exact .inl h
    · exact .inr ⟨y, h, h.edit⟩
  cases c with
  | setProperty name v => exact .inr ⟨_, .setProperty name v⟩
  | fail cause => exact .inr ⟨_, .fail cause⟩
  | setIn m =>
    by_cases h : x.isUnsent = true
    · obtain ⟨owner, hops⟩ := isUnsent_iff.1 h
      exact .inr ⟨_, .setIn m owner hops⟩
    · exact .inl ⟨.inMessageLocked, by simp [Exchange.edit, h]⟩
  | setOut m =>
    by_cases hp : x.pattern.allowsOut = true
    · cases hr : x.replyRefusal? with
      | some r => exact .inl ⟨r, by simp [Exchange.edit, hp, hr]⟩
      | none =>
        obtain ⟨owner, reply⟩ := replyRefusal?_eq_none_iff.1 hr
        exact .inr ⟨_, .setOut m hp owner reply⟩
    · exact .inl ⟨.noOutMessage x.pattern, by simp [Exchange.edit, hp]⟩
  | setFault f =>
    by_cases hp : x.pattern.allowsFault = true
    · cases hr : x.replyRefusal? with
      | some r => exact .inl ⟨r, by simp [Exchange.edit, hp, hr]⟩
      | none =>
        obtain ⟨owner, reply⟩ := replyRefusal?_eq_none_iff.1 hr
        exact .inr ⟨_, .setFault f hp owner reply⟩
    · exact .inl ⟨.noFault x.pattern, by simp [Exchange.edit, hp]⟩
  | done =>
    by_cases h : x.isSatisfied = true
    · exact .inr ⟨_, .done h⟩
    · exact .inl ⟨.incomplete x.pattern, by simp [Exchange.edit, h]⟩
  | dispatch t =>
    by_cases h : x.isUnsent = true
    · obtain ⟨owner, hops⟩ := isUnsent_iff.1 h
      cases hi : x.input with
      | none => exact .inl ⟨.inMessageMissing, by simp [Exchange.edit, h, hi]⟩
      | some m => exact .inr ⟨_, .dispatch t owner hops (by simp [hi])⟩
    · exact .inl ⟨.alreadySent, by simp [Exchange.edit, h]⟩
  | handBack =>
    by_cases h : x.isDelivered = true
    · obtain ⟨owner, hops⟩ := isDelivered_iff.1 h
      by_cases hr : x.hasReply = true
      · exact .inr ⟨_, .handBack owner hops hr⟩
      · exact .inl ⟨.noReply, by simp [Exchange.edit, h, hr]⟩
    · exact .inl ⟨.notDelivered, by simp [Exchange.edit, h]⟩

/-! ### Changes as a whole -/

theorem Moves.change (h : Moves x c y) (ha : x.status = .active) :
    x.change c = (y.publish, .ok ()) := by
  simp [Exchange.change, ha, Status.isTerminal, h.edit]

theorem change_fail (ha : x.status = .active) (cause : String) :
    x.change (.fail cause) = ({ x with status := .error, error := some cause }.publish, .ok ()) :=
  (Moves.fail cause).change ha

/-- What handing an exchange back makes of it. -/
def returned (x : Exchange) : Exchange := { x with owner := .consumer, hops := 2 }.publish

theorem change_handBack_of_ready (ready : x.replyReady = true) :
    x.change .handBack = (x.returned, .ok ()) := by
  obtain ⟨active, delivered, reply⟩ := replyReady_iff.1 ready
  obtain ⟨owner, hops⟩ := isDelivered_iff.1 delivered
  exact (Moves.handBack owner hops reply).change active

theorem change_dispatch_of_no_input (ha : x.status = .active) (owner : x.owner = .consumer)
    (hops : x.hops = 0) (input : x.input = none) (t : Endpoint) :
    x.change (.dispatch t) = (x, .error (.illegalTransition x.id .inMessageMissing)) := by
  simp [Exchange.change, ha, Status.isTerminal, Exchange.edit, isUnsent, owner, hops, input]

/-- What can come of a change: the exchange has ended, the active exchange refuses, or it moves. -/
theorem change_cases (x : Exchange) (c : Change) :
    (x.status ≠ .active ∧ x.change c = (x, .error (.illegalState x.id x.status c.attempt))) ∨
    (x.status = .active ∧ ∃ r, x.change c = (x, .error (.illegalTransition x.id r))) ∨
    (x.status = .active ∧ ∃ y, Moves x c y ∧ x.change c = (y.publish, .ok ())) := by
  by_cases ha : x.status = .active
  · rcases edit_cases x c with ⟨r, hr⟩ | ⟨y, hy, -⟩
    · exact .inr (.inl ⟨ha, r, by simp [Exchange.change, ha, Status.isTerminal, hr]⟩)
    · exact .inr (.inr ⟨ha, y, hy, hy.change ha⟩)
  · exact .inl ⟨ha, change_of_terminal (Status.isTerminal_iff.2 ha) c⟩

/-- A change leaves the exchange as it was, or it moves an active exchange. -/
theorem change_fst_cases (x : Exchange) (c : Change) :
    (x.change c).1 = x ∨ x.status = .active ∧ ∃ y, Moves x c y ∧ (x.change c).1 = y.publish := by
  rcases change_cases x c with ⟨-, h⟩ | ⟨-, r, h⟩ | ⟨ha, y, hy, h⟩
  · exact .inl (by rw [h])
  · exact .inl (by rw [h])
  · exact .inr ⟨ha, y, hy, by rw [h]⟩

/-- A change that is not refused is a move. -/
theorem moves_of_change (h : (x.change c).2 = .ok ()) :
    x.status = .active ∧ ∃ y, Moves x c y ∧ (x.change c).1 = y.publish := by
  rcases change_cases x c with ⟨-, h'⟩ | ⟨-, r, h'⟩ | ⟨ha, y, hy, h'⟩
  · rw [h'] at h; cases h
  · rw [h'] at h; cases h
  · exact ⟨ha, y, hy, by rw [h']⟩

/-- A refused change leaves everything as it was, what is published included. -/
theorem change_of_error {e : ExchangeError} (h : (x.change c).2 = .error e) :
    (x.change c).1 = x := by
  rcases change_cases x c with ⟨-, h'⟩ | ⟨-, r, h'⟩ | ⟨-, y, -, h'⟩
  · rw [h']
  · rw [h']
  · rw [h'] at h; cases h

end Exchange

end ServiceBus
