import Mathlib.Data.Int.CardIntervalMod
import ServiceBus.Proofs.Bus.Followed
import ServiceBus.Proofs.Bus.Picked

/-!
# What rotation gives to each candidate

On a bus whose registry and connections stay as they are, each address has candidates in a fixed
order, but all addresses share one cursor. A candidate's turns are the picks at which the cursor
stands at its rank; at a turn it gets an exchange of the address, or misses it because the pick is for
another address (`Transition.misses`). Turns are even among the candidates of an address, up to one
(`turns_le`). So what they get is even only as far as picks for other addresses leave it so
(`shares`), and sends to two services by turns can starve a candidate (`shares_crossed`).
-/

namespace ServiceBus

/-! ### Candidates have ids of their own -/

theorem Registry.Filed.ids_live_sublist {r : Registry} (h : r.Filed) (ks : List EndpointId) :
    ((r.live ks).map Endpoint.id).Sublist ks := by
  induction ks with
  | nil => exact .slnil
  | cons k ks ih =>
    cases live : r.get? k with
    | none =>
      have same : r.live (k :: ks) = r.live ks := List.filterMap_cons_none live
      rw [same]
      exact ih.cons k
    | some e =>
      have first : r.live (k :: ks) = e :: r.live ks := List.filterMap_cons_some live
      rw [first, List.map_cons, h.own_id k e live]
      exact ih.cons_cons k

theorem Registry.Filed.nodup_ids_lookupService {r : Registry} (h : r.Filed) (s : QualifiedName) :
    ((r.lookupService s).map Endpoint.id).Nodup :=
  (nodup_addMissing (h.services.nodup s) _).sublist (h.ids_live_sublist _)

theorem Registry.Filed.nodup_ids_lookupInterface {r : Registry} (h : r.Filed) (i : QualifiedName) :
    ((r.lookupInterface i).map Endpoint.id).Nodup := by
  unfold lookupInterface
  split
  · next k _ => cases r.get? k <;> simp
  · exact (h.interfaces.nodup i).sublist (h.ids_live_sublist _)

theorem Bus.nodup_ids_offered {b : Bus} (hb : b.registry.Filed) (a : Address) :
    ((b.offered a).map Endpoint.id).Nodup := by
  refine List.Nodup.sublist (List.Sublist.map _ List.filter_sublist) ?_
  obtain ⟨service, interface⟩ := a
  cases service with
  | some s =>
    cases interface with
    | some i =>
      exact (hb.nodup_ids_lookupService s).sublist (List.Sublist.map _ List.filter_sublist)
    | none => exact hb.nodup_ids_lookupService s
  | none =>
    cases interface with
    | some i => exact hb.nodup_ids_lookupInterface i
    | none => exact List.nodup_nil

theorem Bus.offered_congr {b b' : Bus} (registry : b'.registry = b.registry)
    (components : b'.components = b.components) (a : Address) : b'.offered a = b.offered a := by
  unfold offered addressed isRoutable
  rw [registry, components]

/-! ### Turns -/

/-- How often the cursor stands at rank `i` of `n` while it moves on `m` times from `c`. -/
def turns (c n m i : Nat) : Nat := Nat.count (fun k => (c + k) % n = i) m

theorem turns_succ (c n m i : Nat) :
    turns c n (m + 1) i = turns c n m i + if (c + m) % n = i then 1 else 0 :=
  Nat.count_succ _ m

/-- In a rotation the turns of any two differ by one at most. -/
theorem turns_le {n i j : Nat} (c m : Nat) (hi : i < n) (hj : j < n) :
    turns c n m i ≤ turns c n m j + 1 := by
  have positive : 0 < n := by omega
  -- the cursor stands at rank `i` at the moves of one residue
  have residue (i : Nat) (hi : i < n) :
      turns c n m i = Nat.count (· ≡ i + (n - c % n) [MOD n]) m := by
    have back : c + (i + (n - c % n)) ≡ i [MOD n] := by
      have split := Nat.div_add_mod c n
      have below := Nat.mod_lt c positive
      have whole : c + (i + (n - c % n)) = i + n * (c / n + 1) := by
        rw [Nat.mul_add]
        omega
      rw [whole]
      exact Nat.add_mul_mod_self_left i n _
    rw [turns, Nat.count_eq_card_filter_range, Nat.count_eq_card_filter_range]
    refine congrArg Finset.card (Finset.filter_congr fun k _ => ?_)
    constructor
    · intro stands
      have forth : c + k ≡ i [MOD n] := stands.trans (Nat.mod_eq_of_lt hi).symm
      exact Nat.ModEq.add_left_cancel' c (forth.trans back.symm)
    · intro h
      have forth : (c + k) % n = i % n := (h.add_left c).trans back
      exact forth.trans (Nat.mod_eq_of_lt hi)
  rw [residue i hi, residue j hj, Nat.count_modEq_card _ positive, Nat.count_modEq_card _ positive]
  split <;> split <;> omega

/-! ### What a step gives -/

theorem Traffic.Step.bus_of_send {s s' : Traffic} {x : Nat} (h : s.Step (.ask (.send x)) s') :
    x < s.bus.exchanges.size ∧ s'.bus = (s.bus.send x).1 := by
  cases h with
  | ask proper => exact ⟨proper, rfl⟩

/-- A send that ends at once. -/
theorem Traffic.Step.of_send {s : Traffic} {x : Nat} {b : Bus} {r : SendResult}
    (hx : x < s.bus.exchanges.size) (h : s.bus.send x = (b, .ended r)) :
    s.Step (.ask (.send x)) ⟨b, s.jobs, .ask (.send x) :: s.log⟩ := by
  have step : s.Step (.ask (.send x)) _ := .ask (r := .send x) hx
  have pended : s.bus.ask (.send x) = (b, []) := by
    show pending .sending (s.bus.send x) = _
    rw [h]
    rfl
  rwa [pended] at step

namespace Transition
variable {t : Transition} {x : Nat} {a : Address} {c e : Endpoint}

/-- Whether the step takes an exchange of the address to `e`. -/
def gives (a : Address) (e : Endpoint) (t : Transition) : Bool :=
  match t.pick? with
  | some (x, c) => decide (c = e ∧ (t.before.bus.exchange x).address = a ∧
    (t.after.bus.exchange x).target = some e)
  | none => false

/-- Whether it is the turn of `e` in the rotation of the address. -/
def isTurn (a : Address) (e : Endpoint) (t : Transition) : Bool :=
  t.pick?.isSome && decide (t.before.bus.selector.cursor % (t.before.bus.offered a).length =
    rank (t.before.bus.offered a) e)

/-- Whether the turn of `e` passes without an exchange of the address. -/
def misses (a : Address) (e : Endpoint) (t : Transition) : Bool := t.isTurn a e && !t.gives a e

/-- Whether the pick brings no exchange of the address to anybody. -/
def strays (a : Address) (t : Transition) : Bool :=
  match t.pick? with
  | some (_, c) => !t.gives a c
  | none => false

theorem gives_of_pick (pick : t.pick? = some (x, c)) : t.gives a e = decide (c = e ∧
    (t.before.bus.exchange x).address = a ∧ (t.after.bus.exchange x).target = some e) := by
  rw [gives, pick]

theorem gives_iff : t.gives a e = true ↔ ∃ x, t.pick? = some (x, e) ∧
    (t.before.bus.exchange x).address = a ∧ (t.after.bus.exchange x).target = some e := by
  unfold gives
  split
  · next x c pick =>
    rw [decide_eq_true_eq, pick]
    constructor
    · rintro ⟨rfl, address, target⟩
      exact ⟨x, rfl, address, target⟩
    · rintro ⟨y, same, address, target⟩
      obtain ⟨rfl, rfl⟩ := Prod.mk.inj (Option.some.inj same)
      exact ⟨rfl, address, target⟩
  · next none => simp [none]

theorem pick?_eq_some_iff : t.pick? = some (x, e) ↔
    t.deed = .ask (.send x) ∧ t.before.bus.picked? x = some e := by
  unfold pick?
  split
  · next y deed =>
    rw [deed, Option.map_eq_some_iff]
    constructor
    · rintro ⟨c, picked, same⟩
      obtain ⟨rfl, rfl⟩ := Prod.mk.inj same
      exact ⟨rfl, picked⟩
    · rintro ⟨same, picked⟩
      obtain rfl : y = x := by injections
      exact ⟨e, picked, rfl⟩
  · next other => exact ⟨nofun, fun h => absurd h.1 (other x)⟩

theorem isTurn_iff : t.isTurn a e = true ↔ (∃ p, t.pick? = some p) ∧
    t.before.bus.selector.cursor % (t.before.bus.offered a).length =
      rank (t.before.bus.offered a) e := by
  rw [isTurn, Bool.and_eq_true, decide_eq_true_eq, Option.isSome_iff_exists]

/-- By rotation an exchange goes to a candidate of its address whose turn it is. -/
theorem isTurn_of_gives (filed : t.before.bus.registry.Filed)
    (rotates : t.before.bus.selector.strategy = .roundRobin) (h : t.gives a e = true) :
    e ∈ t.before.bus.offered a ∧ t.isTurn a e = true := by
  obtain ⟨x, pick, rfl, -⟩ := gives_iff.1 h
  obtain ⟨-, -, -, -, selected⟩ := Bus.picked?_eq_some_iff.1 (pick?_eq_some_iff.1 pick).2
  obtain ⟨mem, position⟩ :=
    (Selector.select_eq_some_iff _ (Bus.nodup_ids_offered filed _) (.refl _)).1 selected
  rw [Selector.position, rotates] at position
  exact ⟨mem, by simp [isTurn, pick, position]⟩

/-- What misses its turn misses it to a pick for another address, or to one that comes to nothing. -/
theorem strays_of_misses (filed : t.before.bus.registry.Filed)
    (rotates : t.before.bus.selector.strategy = .roundRobin) (mem : e ∈ t.before.bus.offered a)
    (h : t.misses a e = true) : t.strays a = true := by
  obtain ⟨turn, not_given⟩ := Bool.and_eq_true_iff.1 h
  obtain ⟨⟨⟨x, c⟩, pick⟩, stands⟩ := isTurn_iff.1 turn
  rw [strays, pick, Bool.not_eq_true', Bool.eq_false_iff]
  intro given
  obtain ⟨mem', turn'⟩ := isTurn_of_gives filed rotates given
  -- two candidates of one rank are the same
  have distinct := Bus.nodup_ids_offered filed a
  have at_rank := (getElem?_sortBy_eq_some_iff distinct).2 ⟨mem, stands.symm⟩
  have at_rank' := (getElem?_sortBy_eq_some_iff distinct).2 ⟨mem', (isTurn_iff.1 turn').2.symm⟩
  obtain rfl : c = e := Option.some.inj (at_rank'.symm.trans at_rank)
  rw [given] at not_given
  cases not_given

/-- If the step has a pick, then for an exchange of the address, which does not refuse to be sent. -/
def KeepsTo (a : Address) (t : Transition) : Prop :=
  ∀ x c, t.pick? = some (x, c) → (t.before.bus.exchange x).address = a ∧
    ∀ r, (t.before.bus.send x).2 ≠ .ended (.error (.exchange r))

theorem strays_of_keepsTo (step : t.before.Step t.deed t.after) (h : t.KeepsTo a) :
    t.strays a = false := by
  unfold strays
  split
  · next x c pick =>
    obtain ⟨address, accepted⟩ := h x c pick
    obtain ⟨deed, picked⟩ := pick?_eq_some_iff.1 pick
    obtain ⟨hx, after⟩ := (deed ▸ step).bus_of_send
    have target := Bus.target_of_picked hx picked accepted
    rw [gives_iff.2 ⟨x, pick, address, after ▸ target⟩]
    rfl
  · rfl

/-- A turn brings an exchange or passes by. -/
theorem given_or_missed (filed : t.before.bus.registry.Filed)
    (rotates : t.before.bus.selector.strategy = .roundRobin) :
    (t.gives a e).toNat + (t.misses a e).toNat = (t.isTurn a e).toNat := by
  unfold misses
  cases given : t.gives a e with
  | false => simp
  | true => simp [(isTurn_of_gives filed rotates given).2]

end Transition

/-! ### Runs -/

/-- Registry and connections stay as they are. -/
structure Traffic.Fixed (s : Traffic) (d : Deed) (s' : Traffic) : Prop where
  registry_eq : s'.bus.registry = s.bus.registry
  components_eq : s'.bus.components = s.bus.components

/-- How often the selector has picked. -/
def picks (l : List Transition) : Nat := l.countP (·.pick?.isSome)

/-- How many exchanges of an address have gone to `e`. -/
def share (l : List Transition) (a : Address) (e : Endpoint) : Nat := l.countP (·.gives a e)

/-- How many turns have passed `e` by. -/
def missed (l : List Transition) (a : Address) (e : Endpoint) : Nat := l.countP (·.misses a e)

/-- How many picks have brought no exchange of the address to anybody. -/
def strayed (l : List Transition) (a : Address) : Nat := l.countP (·.strays a)

theorem countP_cons_toNat {α : Type} (p : α → Bool) (x : α) (l : List α) :
    (x :: l).countP p = l.countP p + (p x).toNat := by
  rw [List.countP_cons]
  cases p x <;> rfl

section
variable {t : Transition} {l : List Transition} {a : Address} {e : Endpoint}

theorem picks_cons : picks (t :: l) = picks l + t.pick?.isSome.toNat := countP_cons_toNat _ t l

theorem share_cons : share (t :: l) a e = share l a e + (t.gives a e).toNat :=
  countP_cons_toNat _ t l

theorem missed_cons : missed (t :: l) a e = missed l a e + (t.misses a e).toNat :=
  countP_cons_toNat _ t l

end

/-- How the candidates of an address have shared after a run from `b`. -/
structure Shared (b : Bus) (l : List Transition) (a : Address) : Prop where
  /-- The turns of a candidate have brought it an exchange or have passed it by, -/
  turns : ∀ e ∈ b.offered a, share l a e + missed l a e =
    turns b.selector.cursor (b.offered a).length (picks l) (rank (b.offered a) e)
  /-- and no candidate has had two turns more than another. -/
  even : ∀ e ∈ b.offered a, ∀ e' ∈ b.offered a,
    share l a e + missed l a e ≤ share l a e' + missed l a e' + 1
  /-- So the shares differ by one at most, but for the picks that have strayed, -/
  spread : ∀ e ∈ b.offered a, ∀ e' ∈ b.offered a,
    share l a e ≤ share l a e' + strayed l a + 1
  /-- and by one at most if all that is sent is sent to the address. -/
  alone : (∀ t ∈ l, t.KeepsTo a) → ∀ e ∈ b.offered a, ∀ e' ∈ b.offered a,
    share l a e ≤ share l a e' + 1

namespace Traffic.Trace
open Transition
variable {s₀ s : Traffic} {l : List Transition} {a : Address} {e : Endpoint}

theorem fixed (h : Trace Fixed s₀ l s) :
    s.bus.registry = s₀.bus.registry ∧ s.bus.components = s₀.bus.components := by
  induction h with
  | start => exact ⟨rfl, rfl⟩
  | step _ _ meets ih =>
    exact ⟨meets.registry_eq.trans ih.1, meets.components_eq.trans ih.2⟩

/-- The cursor counts the picks. -/
theorem rotation (h : Trace Fixed s₀ l s) (rotates : s₀.bus.selector.strategy = .roundRobin)
    (within : s₀.bus.selector.cursor + picks l < Selector.period) :
    s.bus.selector.strategy = .roundRobin ∧
      s.bus.selector.cursor = s₀.bus.selector.cursor + picks l := by
  induction h with
  | start => exact ⟨rotates, rfl⟩
  | @step l s s' d _ step _ ih =>
    rw [picks_cons] at within ⊢
    obtain ⟨strategy, cursor⟩ := ih (by omega)
    rw [step.selector_of_pick]
    cases pick : (Transition.pick? ⟨s, d, s'⟩).isSome with
    | false => exact ⟨strategy, cursor⟩
    | true =>
      rw [pick] at within
      rw [if_pos rfl, Selector.advance, strategy]
      refine ⟨rfl, ?_⟩
      show (s.bus.selector.cursor + 1) % Selector.period = _
      rw [cursor, Nat.add_assoc]
      exact Nat.mod_eq_of_lt within

/-- What a candidate has got and missed are its turns. -/
theorem share_add_missed (h : Trace Fixed s₀ l s) (filed : s₀.bus.registry.Filed)
    (rotates : s₀.bus.selector.strategy = .roundRobin)
    (within : s₀.bus.selector.cursor + picks l ≤ Selector.period) :
    share l a e + missed l a e =
      turns s₀.bus.selector.cursor (s₀.bus.offered a).length (picks l)
        (rank (s₀.bus.offered a) e) := by
  induction h with
  | start => rfl
  | @step l s s' d trace step _ ih =>
    rw [share_cons, missed_cons]
    rw [picks_cons] at within ⊢
    specialize ih (by omega)
    cases pick : Transition.pick? ⟨s, d, s'⟩ with
    | none =>
      have given : gives a e ⟨s, d, s'⟩ = false := by rw [gives, pick]
      have missed : misses a e ⟨s, d, s'⟩ = false := by rw [misses, isTurn, pick]; rfl
      rw [given, missed]
      exact ih
    | some p =>
      rw [pick] at within
      obtain ⟨registry, components⟩ := trace.fixed
      obtain ⟨strategy, cursor⟩ := trace.rotation rotates within
      have one := given_or_missed (t := ⟨s, d, s'⟩) (a := a) (e := e) (registry ▸ filed) strategy
      have turn : (isTurn a e ⟨s, d, s'⟩).toNat =
          if (s₀.bus.selector.cursor + picks l) % (s₀.bus.offered a).length =
            rank (s₀.bus.offered a) e then 1 else 0 := by
        rw [isTurn, pick, cursor, Bus.offered_congr registry components, Option.isSome_some,
          Bool.true_and]
        split <;> next h => simp [h]
      show _ = turns _ _ (picks l + 1) _
      rw [turns_succ, ← turn, ← one, ← ih]
      omega

theorem missed_le (h : Trace Fixed s₀ l s) (filed : s₀.bus.registry.Filed)
    (rotates : s₀.bus.selector.strategy = .roundRobin)
    (within : s₀.bus.selector.cursor + picks l ≤ Selector.period)
    (mem : e ∈ s₀.bus.offered a) : missed l a e ≤ strayed l a := by
  refine List.countP_mono_left fun t ht missed => ?_
  obtain ⟨later, earlier, rfl⟩ := List.append_of_mem ht
  obtain ⟨before, -⟩ := h.split rfl
  obtain ⟨registry, components⟩ := before.fixed
  obtain ⟨⟨p, pick⟩, -⟩ := isTurn_iff.1 (Bool.and_eq_true_iff.1 missed).1
  have fewer : picks earlier + 1 ≤ picks (later ++ t :: earlier) := by
    unfold picks
    rw [List.countP_append, List.countP_cons_of_pos (by rw [pick]; rfl)]
    omega
  obtain ⟨strategy, -⟩ := before.rotation rotates (by omega)
  exact strays_of_misses (registry ▸ filed) strategy
    (Bus.offered_congr registry components a ▸ mem) missed

end Traffic.Trace

/-- How rotation shares out the exchanges of an address, while registry and connections stay. -/
theorem Traffic.Trace.shares {s₀ s : Traffic} {l : List Transition} (h : Trace Fixed s₀ l s)
    (reachable : s₀.bus.registry.Reachable)
    (rotates : s₀.bus.selector.strategy = .roundRobin)
    (within : s₀.bus.selector.cursor + picks l ≤ Selector.period) (a : Address) :
    Shared s₀.bus l a := by
  have filed := reachable.filed
  have total (e : Endpoint) := h.share_add_missed (a := a) (e := e) filed rotates within
  have below {e : Endpoint} (mem : e ∈ s₀.bus.offered a) :
      rank (s₀.bus.offered a) e < (s₀.bus.offered a).length :=
    rank_lt (Bus.nodup_ids_offered filed a) mem
  have even : ∀ e ∈ s₀.bus.offered a, ∀ e' ∈ s₀.bus.offered a,
      share l a e + missed l a e ≤ share l a e' + missed l a e' + 1 := by
    intro e mem e' mem'
    rw [total e, total e']
    exact turns_le _ _ (below mem) (below mem')
  have spread : ∀ e ∈ s₀.bus.offered a, ∀ e' ∈ s₀.bus.offered a,
      share l a e ≤ share l a e' + strayed l a + 1 := by
    intro e mem e' mem'
    have evenly := even e mem e' mem'
    have missed' := h.missed_le filed rotates within mem'
    omega
  refine ⟨fun e _ => total e, even, spread, fun keeps e mem e' mem' => ?_⟩
  have none : strayed l a = 0 := by
    refine List.countP_eq_zero.2 fun t ht => Bool.eq_false_iff.1 ?_
    obtain ⟨later, earlier, rfl⟩ := List.append_of_mem ht
    obtain ⟨-, step, -⟩ := h.split rfl
    exact Transition.strays_of_keepsTo step (keeps t ht)
  have spread' := spread e mem e' mem'
  omega

/-! ### Two services by turns -/

def left : Endpoint := ⟨⟨"left"⟩, .bare "S", "a", [], .provider, []⟩

def right : Endpoint := ⟨⟨"right"⟩, .bare "S", "b", [], .provider, []⟩

def single : Endpoint := ⟨⟨"single"⟩, .bare "T", "c", [], .provider, []⟩

/-- A request to a service, which nobody waits for. -/
def notice (id service : String) : Exchange :=
  { (default : Exchange) with
    id, pattern := .inOnly, synchronous := false, status := .active, owner := .consumer
    service := some (.bare service), input := some .empty }

/-- A bus with two providers of one service and one of another, and requests to both by turns. -/
def crossing : Bus :=
  { Bus.new .roundRobin id ⟨false, 1000, 1, none⟩ with
    registry := [.register left, .register right, .register single].foldl Registry.after .empty
    components := ((Table.empty.insert left.component (.push 0)).insert right.component
      (.push 1)).insert single.component (.push 2)
    exchanges := #[notice "0" "S", notice "1" "T", notice "2" "S"] }

/-- The bus at which a pick has gone to `e`, with the cursor at `n` then. -/
def Bus.onward (b : Bus) (n x : Nat) (e : Endpoint) (processor : Nat) : Bus :=
  ({ b with selector := ⟨.roundRobin, n, id⟩ }.dispatch x e (.push processor)).1

def crossing₁ : Bus := crossing.onward 1 0 left 0

def crossing₂ : Bus := crossing₁.onward 2 1 single 2

def crossing₃ : Bus := crossing₂.onward 3 2 left 0

theorem picked_crossing : crossing.picked? 0 = some left := by
  refine Bus.picked?_eq_some_iff.2 ⟨rfl, rfl, rfl, rfl, ?_⟩
  exact (Selector.select_eq_some_iff _ (by decide) (.refl _)).2 (by decide)

theorem picked_crossing₁ : crossing₁.picked? 1 = some single := by
  refine Bus.picked?_eq_some_iff.2 ⟨rfl, rfl, rfl, rfl, ?_⟩
  exact (Selector.select_eq_some_iff _ (by decide) (.refl _)).2 (by decide)

theorem picked_crossing₂ : crossing₂.picked? 2 = some left := by
  refine Bus.picked?_eq_some_iff.2 ⟨rfl, rfl, rfl, rfl, ?_⟩
  exact (Selector.select_eq_some_iff _ (by decide) (.refl _)).2 (by decide)

theorem sent_crossing : crossing.send 0 = (crossing₁, .ended (.ok .active)) := by
  obtain ⟨d, connected, sent⟩ := Bus.send_of_picked picked_crossing
  obtain rfl : d = .push 0 := Option.some.inj connected.symm
  exact sent

theorem sent_crossing₁ : crossing₁.send 1 = (crossing₂, .ended (.ok .active)) := by
  obtain ⟨d, connected, sent⟩ := Bus.send_of_picked picked_crossing₁
  obtain rfl : d = .push 2 := Option.some.inj connected.symm
  exact sent

theorem sent_crossing₂ : crossing₂.send 2 = (crossing₃, .ended (.ok .active)) := by
  obtain ⟨d, connected, sent⟩ := Bus.send_of_picked picked_crossing₂
  obtain rfl : d = .push 0 := Option.some.inj connected.symm
  exact sent

/-- The traffic when these have been sent, newest first, and nothing else has happened. -/
def sentOn (b : Bus) (sent : List Nat) : Traffic := ⟨b, [], sent.map fun x => .ask (.send x)⟩

/-- The sending of `x` after these. -/
def sending (b b' : Bus) (x : Nat) (sent : List Nat) : Transition :=
  ⟨sentOn b sent, .ask (.send x), sentOn b' (x :: sent)⟩

/-- The requests are sent one after the other. -/
def crossed : List Transition :=
  [sending crossing₂ crossing₃ 2 [1, 0], sending crossing₁ crossing₂ 1 [0],
    sending crossing crossing₁ 0 []]

theorem trace_crossed :
    Traffic.Trace Traffic.Fixed (sentOn crossing []) crossed (sentOn crossing₃ [2, 1, 0]) := by
  have first : (sentOn crossing []).Step (.ask (.send 0)) (sentOn crossing₁ [0]) :=
    .of_send (by decide) sent_crossing
  have second : (sentOn crossing₁ [0]).Step (.ask (.send 1)) (sentOn crossing₂ [1, 0]) :=
    .of_send (by decide) sent_crossing₁
  have third : (sentOn crossing₂ [1, 0]).Step (.ask (.send 2)) (sentOn crossing₃ [2, 1, 0]) :=
    .of_send (by decide) sent_crossing₂
  exact ((Traffic.Trace.start.step first ⟨rfl, rfl⟩).step second ⟨rfl, rfl⟩).step third ⟨rfl, rfl⟩

/-- Nothing has come to `right`, whose turn went to the other service. -/
theorem shares_crossed : share crossed (some (.bare "S"), none) left = 2 ∧
    share crossed (some (.bare "S"), none) right = 0 ∧ picks crossed = 3 := by
  have first : (sending crossing crossing₁ 0 []).pick? = some (0, left) :=
    Transition.pick?_eq_some_iff.2 ⟨rfl, picked_crossing⟩
  have second : (sending crossing₁ crossing₂ 1 [0]).pick? = some (1, single) :=
    Transition.pick?_eq_some_iff.2 ⟨rfl, picked_crossing₁⟩
  have third : (sending crossing₂ crossing₃ 2 [1, 0]).pick? = some (2, left) :=
    Transition.pick?_eq_some_iff.2 ⟨rfl, picked_crossing₂⟩
  simp only [crossed, share_cons, picks_cons, first, second, third,
    Transition.gives_of_pick first, Transition.gives_of_pick second,
    Transition.gives_of_pick third]
  decide

theorem shares_evenly_crossed :
    Traffic.Trace Traffic.Fixed (sentOn crossing []) crossed (sentOn crossing₃ [2, 1, 0]) ∧
      crossing.registry.Reachable ∧ crossing.selector.strategy = .roundRobin ∧
      crossing.selector.cursor + picks crossed ≤ Selector.period ∧
      Shared crossing crossed (some (.bare "S"), none) := by
  have reachable : crossing.registry.Reachable := ⟨_, rfl⟩
  have within : crossing.selector.cursor + picks crossed ≤ Selector.period := by
    rw [shares_crossed.2.2]
    decide
  exact ⟨trace_crossed, reachable, rfl, within, trace_crossed.shares reachable rfl within _⟩

/-- Sends to other addresses do matter to the shares. -/
theorem not_even_crossed : ¬ ∀ (draws : Nat → Nat) (s₀ s : Traffic) (l : List Transition),
    Traffic.Trace Traffic.Fixed s₀ l s → s₀.bus.registry.Reachable →
    s₀.bus.selector = .new .roundRobin draws →
    (∀ t ∈ l, ∃ x b status, t.deed = .ask (.send x) ∧
      t.before.bus.send x = (b, .ended (.ok status))) →
    ∀ a, ∀ e ∈ s₀.bus.offered a, ∀ e' ∈ s₀.bus.offered a, share l a e ≤ share l a e' + 1 := by
  intro even
  have succeeds : ∀ t ∈ crossed, ∃ x b status, t.deed = .ask (.send x) ∧
      t.before.bus.send x = (b, .ended (.ok status)) := by
    intro t ht
    rcases List.mem_cons.1 ht with rfl | ht
    · exact ⟨2, _, _, rfl, sent_crossing₂⟩
    · rcases List.mem_cons.1 ht with rfl | ht
      · exact ⟨1, _, _, rfl, sent_crossing₁⟩
      · rcases List.mem_singleton.1 ht with rfl
        exact ⟨0, _, _, rfl, sent_crossing⟩
  obtain ⟨two, zero, -⟩ := shares_crossed
  have evenly := even _ _ _ _ trace_crossed ⟨_, rfl⟩ rfl succeeds (some (.bare "S"), none)
    left (by decide) right (by decide)
  omega

end ServiceBus
