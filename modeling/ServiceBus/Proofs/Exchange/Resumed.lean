import Mathlib.Data.List.Forall2
import ServiceBus.Exchange.Snapshot
import ServiceBus.Proofs.Exchange.History
import ServiceBus.Proofs.Registry.Filed

/-!
# Restored exchanges go on as before

An exchange restored from its snapshot is a `Twin` of it: the same but for its endpoints, which may
be missing or be other endpoints of the same ids, and for what it has published. No change looks at
any of these, so the two give the same answers and stay twins (`Twin.change`), through any history
(`Twin.history`).
-/

namespace ServiceBus

/-- `t` is `s`, except that it may lack an endpoint. -/
structure Snapshot.FadesTo (s t : Snapshot) : Prop where
  rest : t = { s with source := t.source, target := t.target }
  source : t.source = s.source ∨ t.source = none
  target : t.target = s.target ∨ t.target = none

namespace Exchange
variable {x y : Exchange} {π ε : Type} {a b a' b' : Exchange × Except ε Unit}

/-- `y` is `x` but for its endpoints, which have the same ids or are missing, and for what has been
published. -/
inductive Twin (x : Exchange) : Exchange → Prop
  | mk (source target : Option Endpoint) (published : Progress)
    (same_source : source.map (·.id) = x.source.map (·.id) ∨ source = none)
    (same_target : target.map (·.id) = x.target.map (·.id) ∨ target = none) :
    Twin x { x with source, target, published }

theorem Twin.snapshot (h : Twin x y) : x.snapshot.FadesTo y.snapshot := by
  cases h with
  | mk source target published hs ht =>
    exact ⟨rfl, hs.imp_right (by rintro rfl; rfl), ht.imp_right (by rintro rfl; rfl)⟩

theorem Twin.publish (h : Twin x y) : Twin x.publish y.publish := by
  cases h with
  | mk source target published hs ht => exact .mk source target _ hs ht

/-! ### Changes of twins -/

/-- The same answer, and twins left behind. -/
structure Alike (a b : Exchange × Except ε Unit) : Prop where
  answer : b.2 = a.2
  twin : Twin a.1 b.1

theorem Alike.ite {p : Prop} [Decidable p] (h : Alike a b) (h' : Alike a' b') :
    Alike (if p then a else a') (if p then b else b') := by
  by_cases hp : p
  · rwa [if_pos hp, if_pos hp]
  · rwa [if_neg hp, if_neg hp]

theorem Twin.edit (h : Twin x y) (c : Change) : Alike (x.edit c) (y.edit c) := by
  have refused (r : Refusal) : Alike (x, .error r) (y, .error r) := ⟨rfl, h⟩
  cases h with
  | mk source target published hs ht =>
    have replies : replyRefusal? { x with source, target, published } = x.replyRefusal? := rfl
    cases c with
    | setProperty name v => exact ⟨rfl, .mk source target published hs ht⟩
    | setIn m =>
      exact .ite (p := x.isUnsent = true) ⟨rfl, .mk source target published hs ht⟩
        (refused .inMessageLocked)
    | setOut m =>
      refine .ite (p := (!x.pattern.allowsOut) = true) (refused _) ?_
      rw [replies]
      cases x.replyRefusal? with
      | some r => exact refused r
      | none => exact ⟨rfl, .mk source target published hs ht⟩
    | setFault f =>
      refine .ite (p := (!x.pattern.allowsFault) = true) (refused _) ?_
      rw [replies]
      cases x.replyRefusal? with
      | some r => exact refused r
      | none => exact ⟨rfl, .mk source target published hs ht⟩
    | done =>
      exact .ite (p := x.isSatisfied = true) ⟨rfl, .mk source target published hs ht⟩ (refused _)
    | fail cause => exact ⟨rfl, .mk source target published hs ht⟩
    | dispatch t =>
      exact .ite (p := (!x.isUnsent) = true) (refused _) <|
        .ite (p := x.input.isNone = true) (refused _)
          ⟨rfl, .mk source (some t) published hs (.inl rfl)⟩
    | handBack =>
      exact .ite (p := (!x.isDelivered) = true) (refused _) <|
        .ite (p := (!x.hasReply) = true) (refused _) ⟨rfl, .mk source target published hs ht⟩

theorem Twin.change (h : Twin x y) (c : Change) : Alike (x.change c) (y.change c) := by
  obtain ⟨answer, twin⟩ := h.edit c
  have hid : y.id = x.id := by cases h; rfl
  have hstatus : y.status = x.status := by cases h; rfl
  unfold Exchange.change
  rw [hid, hstatus]
  refine .ite ⟨rfl, h⟩ ?_
  revert answer twin
  obtain ⟨x', r⟩ := x.edit c
  obtain ⟨y', r'⟩ := y.edit c
  rintro rfl twin
  cases r' with
  | error r => exact ⟨rfl, twin⟩
  | ok u => exact ⟨rfl, twin.publish⟩

/-- Twins have like histories. -/
theorem Twin.history (h : Twin x y) (l : List (π × Change)) :
    List.Forall₂ (fun (k m : Call π) => m.party = k.party ∧ m.change = k.change ∧
      m.answer = k.answer ∧ Twin k.after m.after) (x.history l) (y.history l) := by
  induction l generalizing x y with
  | nil => exact .nil
  | cons e l ih =>
    obtain ⟨p, c⟩ := e
    obtain ⟨answer, twin⟩ := h.change c
    rw [history_cons, history_cons]
    exact .cons ⟨rfl, rfl, answer, twin⟩ (ih twin)

end Exchange

/-! ### Restoring -/

namespace Registry
variable {r : Registry} {π : Type}

/-- What is live under an id has the id, so finding an endpoint again can only lose it. -/
theorem Filed.map_id_bind (h : r.Filed) (o : Option EndpointId) :
    (o >>= r.get?).map (·.id) = o.filter fun k => (r.get? k).isSome := by
  cases o with
  | none => rfl
  | some k =>
    rw [Option.filter_some]
    show (r.get? k).map (·.id) = _
    cases hk : r.get? k with
    | none => rfl
    | some e => exact congrArg some (h.own_id k e hk)

theorem Filed.snapshot_restore (h : r.Filed) (x : Exchange) :
    (x.snapshot.restore r).snapshot = { x.snapshot with
      source := x.snapshot.source.filter fun k => (r.get? k).isSome
      target := x.snapshot.target.filter fun k => (r.get? k).isSome } := by
  rw [← h.map_id_bind, ← h.map_id_bind]
  rfl

theorem Filed.twin_restore (h : r.Filed) (x : Exchange) : x.Twin (x.snapshot.restore r) := by
  have found (o : Option EndpointId) :
      (o >>= r.get?).map (·.id) = o ∨ (o >>= r.get?) = none := by
    cases ho : (o >>= r.get?) with
    | none => exact .inr rfl
    | some e =>
      obtain ⟨k, rfl, hk⟩ := Option.bind_eq_some_iff.1 ho
      exact .inl (congrArg some (h.own_id k e hk))
  exact .mk _ _ _ (found _) (found _)

/-- An exchange restored from its snapshot has that snapshot, without the endpoints that are no
longer live, and goes on as the exchange does. -/
theorem Reachable.resumes (h : r.Reachable) (x : Exchange) (l : List (π × Change)) :
    (x.snapshot.restore r).snapshot = { x.snapshot with
        source := x.snapshot.source.filter fun k => (r.get? k).isSome
        target := x.snapshot.target.filter fun k => (r.get? k).isSome } ∧
      ((∀ k, x.snapshot.source = some k ∨ x.snapshot.target = some k → (r.get? k).isSome = true) →
        (x.snapshot.restore r).snapshot = x.snapshot) ∧
      List.Forall₂ (fun (k m : Exchange.Call π) => m.party = k.party ∧ m.change = k.change ∧
          m.answer = k.answer ∧ k.after.snapshot.FadesTo m.after.snapshot)
        (x.history l) ((x.snapshot.restore r).history l) := by
  have same := h.filed.snapshot_restore x
  have kept {o : Option EndpointId} (live : ∀ k, o = some k → (r.get? k).isSome = true) :
      (o.filter fun k => (r.get? k).isSome) = o := by
    cases o with
    | none => rfl
    | some k => exact Option.filter_some_pos (live k rfl)
  refine ⟨same, fun live => ?_, ?_⟩
  · rw [same, kept fun k hk => live k (.inl hk), kept fun k hk => live k (.inr hk)]
  · refine ((h.filed.twin_restore x).history l).imp ?_
    rintro k m ⟨party, change, answer, twin⟩
    exact ⟨party, change, answer, twin.snapshot⟩

/-- A consumer whose provider has come and gone. -/
def vacated : Registry :=
  [.register ⟨⟨"c"⟩, ⟨"", "S"⟩, "from", [], .consumer, []⟩,
    .register ⟨⟨"p"⟩, ⟨"", "S"⟩, "to", [], .provider, []⟩,
    .unregisterComponent ⟨"p"⟩].foldl after .empty

/-- What the consumer sent to the provider, while that was live. -/
def outstanding : Exchange :=
  { Draft.build ⟨.inOut, true, false, none, none, none, none,
      some ⟨⟨"c"⟩, ⟨"", "S"⟩, "from", [], .consumer, []⟩, some .empty, []⟩ "x" with
    target := some ⟨⟨"p"⟩, ⟨"", "S"⟩, "to", [], .provider, []⟩, owner := .provider, hops := 1 }

theorem resumes_vacated :
    (outstanding.snapshot.restore vacated).snapshot = { outstanding.snapshot with target := none } ∧
      outstanding.snapshot.target = some ⟨⟨"", "S"⟩, "to"⟩ ∧
      List.Forall₂ (fun (k m : Exchange.Call Unit) => m.party = k.party ∧ m.change = k.change ∧
          m.answer = k.answer ∧ k.after.snapshot.FadesTo m.after.snapshot)
        (outstanding.history [((), .done), ((), .setOut .empty), ((), .handBack), ((), .done)])
        ((outstanding.snapshot.restore vacated).history
          [((), .done), ((), .setOut .empty), ((), .handBack), ((), .done)]) := by
  obtain ⟨same, -, runs⟩ := Reachable.resumes (r := vacated) ⟨_, rfl⟩ outstanding _
  exact ⟨same.trans (by decide), rfl, runs⟩

end Registry
end ServiceBus
