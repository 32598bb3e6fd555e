import ServiceBus.Bus.Route
import ServiceBus.Proofs.Bus.Selector
import ServiceBus.Proofs.Exchange.Moves
import ServiceBus.Proofs.Registry.Lookup

/-!
# Routing is sound and complete

`b.Candidate e c` says, for each way in which an exchange is addressed, which live endpoints `c` it
may go to, and `b.Routable c` that deliveries to `c` are possible. Resolving a target finds one that
is both, and fails the exchange when there is none.
-/

namespace ServiceBus.Bus
variable {b : Bus} {e : Exchange} {c t : Endpoint}

/-- A named endpoint stands for itself as its component holds it now, or for where its link leads if
nobody holds its id. Without a name, service and interface have to fit. -/
inductive Candidate (b : Bus) (e : Exchange) (c : Endpoint) : Prop
  | named {t : Endpoint} (target : e.target = some t) (live : b.registry.get? t.id = some c)
      (component : c.component = t.component)
  | linked {t : Endpoint} (target : e.target = some t) (vacant : b.registry.get? t.id = none)
      (link : b.registry.links.get? t.id = some c.id) (live : b.registry.get? c.id = some c)
  | both {s i : QualifiedName} (unnamed : e.target = none) (service : e.service = some s)
      (interface : e.interface = some i) (offers : b.registry.Offers s c)
      (declares : i ∈ c.interfaces)
  | service {s : QualifiedName} (unnamed : e.target = none) (service : e.service = some s)
      (interface : e.interface = none) (offers : b.registry.Offers s c)
  | pinned {i : QualifiedName} (unnamed : e.target = none) (service : e.service = none)
      (interface : e.interface = some i) (pin : b.registry.pins.get? i = some c.id)
      (live : b.registry.get? c.id = some c)
  | declared {i : QualifiedName} (unnamed : e.target = none) (service : e.service = none)
      (interface : e.interface = some i) (unpinned : b.registry.pins.get? i = none)
      (declares : i ∈ c.interfaces) (live : b.registry.get? c.id = some c)

structure Routable (b : Bus) (c : Endpoint) : Prop where
  live : b.registry.get? c.id = some c
  provider : c.role = .provider
  connected : b.components.contains c.component = true

theorem isRoutable_iff :
    b.isRoutable c = true ↔ c.role = .provider ∧ b.components.contains c.component = true := by
  simp [isRoutable]

theorem named?_eq_some_iff (hb : b.registry.Filed) :
    b.named? t = some c ↔
      (b.registry.get? t.id = some c ∧ c.component = t.component) ∨
      (b.registry.get? t.id = none ∧ b.registry.links.get? t.id = some c.id ∧
        b.registry.get? c.id = some c) := by
  unfold named?
  cases hg : b.registry.get? t.id with
  | some live =>
    dsimp only
    split
    · next hc =>
      simp only [Option.some.injEq, reduceCtorEq, false_and, or_false]
      exact ⟨fun h => ⟨h, h ▸ hc⟩, And.left⟩
    · next hc =>
      simp only [Option.some.injEq, reduceCtorEq, false_and, or_false, false_iff]
      rintro ⟨rfl, h⟩
      exact hc h
  | none =>
    simp only [Registry.linked?, Option.bind_eq_bind, Option.bind_eq_some_iff, reduceCtorEq,
      false_and, true_and, false_or]
    constructor
    · rintro ⟨k, hk, hc⟩
      rw [hb.own_id k c hc]
      exact ⟨hk, hc⟩
    · rintro ⟨hk, hc⟩
      exact ⟨c.id, hk, hc⟩

theorem Candidate.of_mem (hb : b.registry.Filed) (h : c ∈ b.candidates e) : b.Candidate e c := by
  unfold candidates at h
  cases ht : e.target with
  | some t =>
    rw [ht] at h
    obtain ⟨hg, hc⟩ | ⟨hn, hl, hc⟩ := (named?_eq_some_iff hb).1 (Option.mem_toList.1 h)
    · exact .named ht hg hc
    · exact .linked ht hn hl hc
  | none =>
    rw [ht] at h
    dsimp only at h
    cases hs : e.service <;> cases hi : e.interface <;> rw [hs, hi] at h
    · cases h
    · obtain ⟨hc, hp | ⟨hp, hd⟩⟩ := hb.mem_lookupInterface.1 h
      · exact .pinned ht hs hi hp hc
      · exact .declared ht hs hi hp hd hc
    · exact .service ht hs hi (hb.mem_lookupService.1 h)
    · obtain ⟨ho, hd⟩ := List.mem_filter.1 h
      exact .both ht hs hi (hb.mem_lookupService.1 ho) (of_decide_eq_true hd)

theorem Candidate.mem (hb : b.registry.Filed) (h : b.Candidate e c) : c ∈ b.candidates e := by
  unfold candidates
  cases h with
  | named ht hg hc =>
    rw [ht]
    exact Option.mem_toList.2 ((named?_eq_some_iff hb).2 (.inl ⟨hg, hc⟩))
  | linked ht hn hl hc =>
    rw [ht]
    exact Option.mem_toList.2 ((named?_eq_some_iff hb).2 (.inr ⟨hn, hl, hc⟩))
  | both ht hs hi ho hd =>
    rw [ht, hs, hi]
    exact List.mem_filter.2 ⟨hb.mem_lookupService.2 ho, decide_eq_true hd⟩
  | service ht hs hi ho =>
    rw [ht, hs, hi]
    exact hb.mem_lookupService.2 ho
  | pinned ht hs hi hp hc =>
    rw [ht, hs, hi]
    exact hb.mem_lookupInterface.2 ⟨hc, .inl hp⟩
  | declared ht hs hi hp hd hc =>
    rw [ht, hs, hi]
    exact hb.mem_lookupInterface.2 ⟨hc, .inr ⟨hp, hd⟩⟩

theorem Candidate.live (hb : b.registry.Filed) (h : b.Candidate e c) :
    b.registry.get? c.id = some c := by
  cases h with
  | named _ hg _ => rwa [hb.own_id _ c hg]
  | linked _ _ _ hc => exact hc
  | both _ _ _ ho _ => cases ho <;> assumption
  | service _ _ _ ho => cases ho <;> assumption
  | pinned _ _ _ _ hc => exact hc
  | declared _ _ _ _ _ hc => exact hc

/-- The endpoints that selection is among. -/
def routes (b : Bus) (e : Exchange) : List Endpoint := (b.candidates e).filter b.isRoutable

theorem mem_routes_iff (hb : b.registry.Filed) :
    c ∈ b.routes e ↔ b.Candidate e c ∧ b.Routable c := by
  rw [routes, List.mem_filter, isRoutable_iff]
  constructor
  · rintro ⟨hc, hp, hcon⟩
    have hc := Candidate.of_mem hb hc
    exact ⟨hc, hc.live hb, hp, hcon⟩
  · rintro ⟨hc, -, hp, hcon⟩
    exact ⟨hc.mem hb, hp, hcon⟩

theorem routes_of_target (h : e.target = some t) :
    b.routes e = [] ∨ ∃ c, b.routes e = [c] := by
  have hc : b.candidates e = (b.named? t).toList := by rw [candidates, h]
  rw [routes, hc]
  cases b.named? t with
  | none => exact .inl rfl
  | some c =>
    by_cases hr : b.isRoutable c = true
    · exact .inr ⟨c, List.filter_cons_of_pos hr⟩
    · exact .inl (List.filter_cons_of_neg hr)

/-- The selector decides unless an endpoint is named, and then there is at most one route. -/
theorem choose_cases (b : Bus) (e : Exchange) :
    (b.routes e = [] ∧ (b.choose e).2 = none) ∨
      ∃ t ∈ b.routes e, (b.choose e).2 = some t ∧
        (b.selector.strategy = .first → ∀ c ∈ b.routes e, (compare t.id c.id).isLE) := by
  cases ht : e.target with
  | some t =>
    have hch : (b.choose e).2 = (b.routes e).head? := by rw [choose, ht, routes]
    rw [hch]
    obtain hr | ⟨c, hr⟩ := routes_of_target (b := b) ht <;> rw [hr]
    · exact .inl ⟨rfl, rfl⟩
    · refine .inr ⟨c, List.mem_singleton_self c, rfl, fun _ d hd => ?_⟩
      rw [List.mem_singleton.1 hd]
      exact Std.ReflCmp.isLE_rfl
  | none =>
    have hch : b.choose e = b.selector.select (b.routes e) := by rw [choose, ht, routes]
    rw [hch]
    by_cases hr : b.routes e = []
    · rw [hr]
      exact .inl ⟨rfl, rfl⟩
    · obtain ⟨t, ht, hs, hl⟩ := b.selector.select_of_ne_nil hr
      exact .inr ⟨t, ht, by rw [hs], hl⟩

theorem resolveTarget_cases (b : Bus) (x : Nat) :
    (b.routes (b.exchange x) = [] ∧ ∃ selector, b.resolveTarget x =
      ({ b with selector }.failQuietly x ("no route to " ++ describeAddress (b.exchange x)),
        .error (.noRoute (b.exchange x).id (describeAddress (b.exchange x))))) ∨
    ∃ selector, ∃ t ∈ b.routes (b.exchange x), b.resolveTarget x = ({ b with selector }, .ok t) ∧
      (b.selector.strategy = .first → ∀ c ∈ b.routes (b.exchange x), (compare t.id c.id).isLE) := by
  obtain ⟨hr, h⟩ | ⟨t, ht, h, hl⟩ := b.choose_cases (b.exchange x)
  · obtain ⟨selector, hch⟩ : ∃ s, b.choose (b.exchange x) = (s, none) := ⟨_, Prod.ext rfl h⟩
    exact .inl ⟨hr, selector, by simp only [resolveTarget, hch]⟩
  · obtain ⟨selector, hch⟩ : ∃ s, b.choose (b.exchange x) = (s, some t) := ⟨_, Prod.ext rfl h⟩
    exact .inr ⟨selector, t, ht, by simp only [resolveTarget, hch], hl⟩

/-- What resolving the target of `x` comes to, `r` being the bus after it and the answer. -/
structure Resolves (b : Bus) (x : Nat) (r : Bus × Except RouterError Endpoint) : Prop where
  error_iff : (∃ err, r.2 = .error err) ↔ ∀ c, b.Candidate (b.exchange x) c → ¬ b.Routable c
  no_route : ∀ err, r.2 = .error err →
    err = .noRoute (b.exchange x).id (describeAddress (b.exchange x))
  fails : ∀ err, r.2 = .error err → (b.exchange x).status = .active →
    (r.1.exchange x).status = .error ∧
      (r.1.exchange x).error = some ("no route to " ++ describeAddress (b.exchange x))
  sound : ∀ t, r.2 = .ok t → b.Candidate (b.exchange x) t ∧ b.Routable t
  least : ∀ t, r.2 = .ok t → b.selector.strategy = .first →
    ∀ c, b.Candidate (b.exchange x) c → b.Routable c → (compare t.id c.id).isLE
  kept : ∀ t, r.2 = .ok t → r.1.exchanges = b.exchanges
  others : ∀ y, y ≠ x → r.1.exchange y = b.exchange y

theorem resolveTarget_resolves (b : Bus) (x : Nat) (hb : b.registry.Reachable)
    (hx : x < b.exchanges.size) : b.Resolves x (b.resolveTarget x) := by
  have hmem : ∀ c, c ∈ b.routes (b.exchange x) ↔ b.Candidate (b.exchange x) c ∧ b.Routable c :=
    fun c => mem_routes_iff hb.filed
  obtain ⟨hr, selector, h⟩ | ⟨selector, t, ht, h, hl⟩ := b.resolveTarget_cases x <;> rw [h]
  · have hex := exchange_change { b with selector } hx
      (c := .fail ("no route to " ++ describeAddress (b.exchange x)))
    refine ⟨⟨fun _ c hc hcr => ?_, fun _ => ⟨_, rfl⟩⟩, fun err he => ?_, fun err _ hact => ?_,
      fun t he => (nomatch he), fun t he => (nomatch he), fun t he => (nomatch he), fun y hy => ?_⟩
    · have hc := (hmem c).2 ⟨hc, hcr⟩
      rw [hr] at hc
      cases hc
    · exact (Except.error.inj he).symm
    · rw [failQuietly, hex, if_pos rfl]
      have hf := Exchange.change_fail hact ("no route to " ++ describeAddress (b.exchange x))
      exact ⟨congrArg (·.1.status) hf, congrArg (·.1.error) hf⟩
    · rw [failQuietly, hex, if_neg hy]
      rfl
  · refine ⟨⟨fun ⟨err, he⟩ => (nomatch he), fun hno => ?_⟩, fun err he => (nomatch he),
      fun err he => (nomatch he), fun t' he => ?_, fun t' he hs c hc hcr => ?_, fun _ _ => rfl,
      fun _ _ => rfl⟩
    · obtain ⟨hc, hcr⟩ := (hmem t).1 ht
      exact absurd hcr (hno t hc)
    · obtain rfl := Except.ok.inj he
      exact (hmem t).1 ht
    · obtain rfl := Except.ok.inj he
      exact hl hs c ((hmem c).2 ⟨hc, hcr⟩)

def stock : Endpoint := ⟨⟨"warehouse"⟩, .bare "Stock", "main", [], .provider, []⟩

/-- A bus whose one exchange names an endpoint that nobody holds and a link leads to `stock`. -/
def linkedBus : Bus :=
  let named : Endpoint := ⟨⟨"shop"⟩, .bare "Stock", "any", [], .provider, []⟩
  { Bus.new .first id default with
    registry := [.register stock, .link named.id stock.id].foldl Registry.after .empty
    components := Table.empty.insert stock.component (.push 0)
    exchanges := #[{ (default : Exchange) with target := some named }] }

theorem resolveTarget_resolves_linkedBus :
    linkedBus.registry.Reachable ∧ 0 < linkedBus.exchanges.size ∧
      (linkedBus.resolveTarget 0).2 = .ok stock ∧
      linkedBus.Resolves 0 (linkedBus.resolveTarget 0) :=
  ⟨⟨_, rfl⟩, Nat.one_pos, rfl, linkedBus.resolveTarget_resolves 0 ⟨_, rfl⟩ Nat.one_pos⟩

end ServiceBus.Bus
