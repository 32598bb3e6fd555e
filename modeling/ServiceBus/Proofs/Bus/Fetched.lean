import Mathlib.Algebra.GroupWithZero.Nat
import ServiceBus.Proofs.Bus.Lines

/-!
# What becomes of what is put into a queue

`Transition.placed q` is what a step puts into queue `q`, and `Transition.fetched q` what it lets an
acceptor come away with; `trail` collects either along a run, oldest first. A step feeds a queue at
its end, or takes from its front what an acceptor gets together with what had ended (`Serves`). So
what has entered a queue is what has left it and then what is in it (`Ledger`), and the theorem about
acceptors (`fetched_in_order`) reads off there that they lose nothing and get nothing twice.
-/

namespace ServiceBus
open Bus

/-- What an acceptor has come away with. -/
def Turn.got? : Turn Accepting AcceptResult → Option Nat
  | .ended (.ok x) => some x
  | _ => none

namespace Transition
variable {f : Transition → List Nat} {l later earlier : List Transition} {t : Transition} {q x : Nat}

/-- The queue at which an acceptor has its turn. -/
def turnAt? (t : Transition) : Option Nat :=
  match t.deed with
  | .ask (.accept c _) =>
    match t.before.bus.components.get? c with
    | some (.pull q) => some q
    | _ => none
  | .resume (.accepting a) => some a.queue
  | _ => none

/-- The exchange that an acceptor returns. -/
def returned? (t : Transition) : Option Nat :=
  match t.deed with
  | .ask (.accept c limit) => (t.before.bus.accept c limit).2.got?
  | .resume (.accepting a) => (t.before.bus.resumeAccept a).2.got?
  | _ => none

/-- What an acceptor returns from queue `q`. -/
def fetched (q : Nat) (t : Transition) : List Nat :=
  if t.turnAt? = some q then t.returned?.toList else []

/-- What is put into queue `q`. -/
def placed (q : Nat) (t : Transition) : List Nat :=
  (t.after.bus.queue q).items.drop (t.before.bus.queue q).items.length

/-- What a list of steps, newest first, comes to under `f`, oldest first. -/
def trail (f : Transition → List Nat) (l : List Transition) : List Nat := l.reverse.flatMap f

@[simp] theorem trail_nil : trail f [] = [] := rfl

@[simp] theorem trail_cons : trail f (t :: l) = trail f l ++ f t := by
  simp [trail]

theorem mem_trail : x ∈ trail f l ↔ ∃ t ∈ l, x ∈ f t := by
  simp [trail]

theorem mem_fetched : x ∈ t.fetched q ↔ t.turnAt? = some q ∧ t.returned? = some x := by
  unfold fetched
  split <;> simp [*]

theorem returned?_eq_none (h : t.deed.isInLine = false) : t.returned? = none := by
  unfold returned?
  split
  · next e => cases (congrArg Deed.isInLine e).symm.trans h
  · next e => cases (congrArg Deed.isInLine e).symm.trans h
  · rfl

end Transition

/-! ### What a step does at a queue -/

namespace Bus
variable {b b' : Bus} {q x : Nat}

/-- From `b` to `b'` the exchanges in `got` have been taken out of queue `q`, and others at its front
that have ended. -/
structure Yields (b : Bus) (q : Nat) (got : List Nat) (b' : Bus) : Prop where
  drawn : ∃ gone, (b.queue q).items = gone ++ got ++ (b'.queue q).items ∧
    ∀ x ∈ gone, x < b.exchanges.size → (b'.exchange x).status ≠ .active
  got : ∀ x ∈ got, (b.queue q).closed = false ∧ (b'.exchange x).status = .active

theorem accept_of_connected {c : ComponentId} (h : b.components.get? c = some (.pull q))
    (limit : Option Nat) : b.accept c limit =
      b.take.1.resumeAccept ⟨c, q, b.fresh, limit.map fun ms => (ms, b.now + ms)⟩ := by
  rw [Bus.accept, h]
  rfl

theorem accept_of_not_connected {c : ComponentId} (h : ∀ q, b.components.get? c ≠ some (.pull q))
    (limit : Option Nat) : b.accept c limit = (b, .ended (.error (.notConnected c))) := by
  unfold Bus.accept
  split
  · next q connected => exact absurd connected (h q)
  · rfl

theorem Yields.of_items (h : (b'.queue q).items = (b.queue q).items) : Yields b q [] b' :=
  ⟨⟨[], h.symm, by simp⟩, by simp⟩

theorem Clears.yields (h : Clears b b') (q : Nat) : Yields b q [] b' where
  drawn := by
    obtain same | ⟨empty, ended⟩ := h.items q
    · exact (Yields.of_items same).drawn
    · exact ⟨(b.queue q).items, by simp [empty], ended⟩
  got := by simp

theorem Accepts.yields {a : Accepting} {r : Bus × Turn Accepting AcceptResult} (h : Accepts b a r)
    (q : Nat) : Yields b q (if a.queue = q then r.2.got?.toList else []) r.1 := by
  have joined : ((b.join a.queue a.ticket).queue q).items = (b.queue q).items := by
    unfold join
    rw [queue_setQueue]
    split
    · next e => rw [PullQueue.items_joinLine, e.1]
    · rfl
  have left (b : Bus) : ((b.leave a.queue a.ticket).queue q).items = (b.queue q).items := by
    unfold leave
    rw [queue_setQueue]
    split
    · next e => rw [e.1]; rfl
    · rfl
  -- a draw is at the queue of the acceptor, and does nothing to exchanges
  have drawn {got : List Nat} {b' c : Bus} (opened : got ≠ [] → (b.queue a.queue).closed = false)
      (draws : Draws (b.join a.queue a.ticket) a.queue got b')
      (items : (c.queue q).items = (b'.queue q).items) (exchanges : c.exchanges = b'.exchanges) :
      Yields b q (if a.queue = q then got else []) c := by
    have same (x : Nat) : c.exchange x = b.exchange x := by
      rw [exchange, exchanges, draws.exchanges_eq]
      rfl
    by_cases e : a.queue = q
    · subst e
      obtain ⟨gone, drawn, ended⟩ := draws.drawn
      rw [if_pos rfl]
      refine ⟨⟨gone, ?_, fun x hx _ => ?_⟩, fun x hx => ⟨opened (List.ne_nil_of_mem hx), ?_⟩⟩
      · rw [← joined, drawn, items]
      · rw [same]
        exact ended x hx
      · rw [same]
        exact draws.active x hx
    · rw [if_neg e]
      exact .of_items (by rw [items, draws.others_eq q (Ne.symm e), joined])
  cases h with
  | refused => exact drawn (absurd rfl) (.refl _ _) ((left b).trans joined.symm) rfl
  | takes opened draws => exact drawn (fun _ => opened) draws (left _) rfl
  | expires draws => exact drawn (absurd rfl) draws (left _) rfl
  | waits draws => exact drawn (absurd rfl) draws rfl rfl

end Bus

namespace Traffic
variable {s s' s₀ : Traffic} {d : Deed} {x q : Nat}
open Transition

/-- A step is the turn of an acceptor, or it has to do with queues only in feeding or clearing
them. -/
theorem Step.accepts_cases (h : s.Step d s') :
    (∃ (b : Bus) (a : Accepting), b.queues = s.bus.queues ∧ b.exchanges = s.bus.exchanges ∧
      s'.bus = (b.resumeAccept a).1 ∧ turnAt? ⟨s, d, s'⟩ = some a.queue ∧
      returned? ⟨s, d, s'⟩ = (b.resumeAccept a).2.got?) ∨
    (returned? ⟨s, d, s'⟩ = none ∧
      (Feeds { s.bus with selector := s.bus.selectorAfter d } s'.bus ∨ Clears s.bus s'.bus)) := by
  by_cases apart : d.isInLine = false
  · refine .inr ⟨returned?_eq_none apart, ?_⟩
    by_cases loud : d.isPlain = false
    · exact .inl (h.feeds loud)
    · exact .inr (h.rewires (eq_true_of_ne_false loud) apart).toClears
  cases h with
  | @ask r proper =>
    cases r with
    | accept c limit =>
      by_cases connected : ∃ q, s.bus.components.get? c = some (.pull q)
      · obtain ⟨q, connected⟩ := connected
        have turn := accept_of_connected connected limit
        refine .inl ⟨s.bus.take.1, _, rfl, rfl, congrArg Prod.fst turn, ?_, ?_⟩
        · simp [turnAt?, connected]
        · simp [returned?, turn]
      · have turn := accept_of_not_connected (not_exists.1 connected) limit
        refine .inr ⟨by simp [returned?, turn, Turn.got?], .inr (.of_queues (.of_eq ?_) ?_)⟩
        · exact congrArg (·.1.exchanges) turn
        · exact congrArg (·.1.queues) turn
    | _ => exact absurd rfl apart
  | @take l before after launched =>
    cases l with
    | closer q =>
      have left : Clears s.bus (s.bus.leaving (before ++ after)).take.1 :=
        .of_queues (.of_eq rfl) rfl
      exact .inr ⟨rfl, .inr (left.trans (.resumeClosing _ _))⟩
    | _ => exact absurd rfl apart
  | @resume j rest job =>
    cases j with
    | accepting a => exact .inl ⟨s.bus, a, rfl, rfl, rfl, rfl, rfl⟩
    | closing c => exact .inr ⟨rfl, .inr (.resumeClosing s.bus c)⟩
    | _ => exact absurd rfl apart
  | @abandon j rest call job =>
    cases j with
    | accepting a => exact .inr ⟨rfl, .inr (.leave s.bus a.queue a.ticket)⟩
    | _ => exact absurd rfl apart
  | finish | serve | pass => exact absurd rfl apart

end Traffic

/-- What a step does at queue `q`. -/
inductive Transition.Serves (q : Nat) (t : Transition) : Prop
  | feeds {x : Nat} (puts : t.Puts x q) (idle : t.fetched q = [])
  | yields (yields : Yields t.before.bus q (t.fetched q) t.after.bus)

namespace Traffic
variable {s s' s₀ : Traffic} {d : Deed} {l : List Transition} {x q : Nat}
open Transition

theorem Step.serves (h : s.Step d s') (q : Nat) : Serves q ⟨s, d, s'⟩ := by
  obtain ⟨b, a, queues, exchanges, turn, turnAt, returned⟩ | ⟨none, feeds | clears⟩ :=
    h.accepts_cases
  · have yields := (accepts b a).yields q
    have fetched : fetched q ⟨s, d, s'⟩ =
        if a.queue = q then (b.resumeAccept a).2.got?.toList else [] := by
      simp only [Transition.fetched, turnAt, returned, Option.some.injEq]
    rw [← fetched, ← turn] at yields
    refine .yields ⟨?_, fun x hx => ?_⟩
    · rw [← queue_congr queues, ← exchanges]
      exact yields.drawn
    · rw [← queue_congr queues]
      exact yields.got x hx
  · have idle : fetched q ⟨s, d, s'⟩ = [] := by simp [Transition.fetched, none]
    obtain same | ⟨-, -, x, puts⟩ := feeds.items q
    · exact .yields (idle ▸ .of_items same)
    · exact .feeds puts idle
  · have idle : fetched q ⟨s, d, s'⟩ = [] := by simp [Transition.fetched, none]
    exact .yields (idle ▸ clears.yields q)

/-- What is given away is there. -/
theorem Step.lt_size_of_gives (h : s.Step d s') (ordered : s.bus.Orderly s.jobs)
    (gives : Gives ⟨s, d, s'⟩ x) : x < s'.bus.exchanges.size := by
  obtain offered | ⟨target, dl, b, v, come, others, submits, lands⟩ :=
    (h.leg ordered x).offered (.inl gives)
  · exact Nat.lt_of_lt_of_le (offered.dispatched ordered).lt_size h.evolves.size_le
  · have evolves : Evolves b s'.bus := lands.toEvolves.from_eq rfl
    exact Nat.lt_of_lt_of_le (submits.dispatched ordered).lt_size evolves.size_le

end Traffic

/-! ### Ledgers -/

namespace Traffic
variable {s s' s₀ : Traffic} {d : Deed} {l later : List Transition} {x q : Nat}
open Transition

/-- What has placed queue `q` has left it or is in it, in this order; whoever has left has been
fetched, in this order, or has ended. -/
structure Ledger (q : Nat) (l : List Transition) (s : Traffic) : Prop where
  there : ∀ x ∈ (s.bus.queue q).items, x < s.bus.exchanges.size
  left : ∃ out, trail (placed q) l = out ++ (s.bus.queue q).items ∧
    (trail (fetched q) l).Sublist out ∧
    ∀ x ∈ out, x ∈ trail (fetched q) l ∨ (s.bus.exchange x).status ≠ .active

theorem Ledger.step (h : Ledger q l s) (step : s.Step d s') (ordered : s.bus.Orderly s.jobs) :
    Ledger q (⟨s, d, s'⟩ :: l) s' := by
  have evolves := step.evolves
  have stays {x : Nat} (hx : x ∈ (s.bus.queue q).items) : x < s'.bus.exchanges.size :=
    Nat.lt_of_lt_of_le (h.there x hx) evolves.size_le
  obtain ⟨out, through, sub, gone⟩ := h.left
  cases step.serves q with
  | @feeds x puts idle =>
    have puts : (s'.bus.queue q).items = (s.bus.queue q).items ++ [x] := puts
    have enters : placed q ⟨s, d, s'⟩ = [x] := by simp [placed, puts]
    refine ⟨fun y hy => ?_, out, ?_, ?_, fun y hy => ?_⟩
    · rw [puts, List.mem_append, List.mem_singleton] at hy
      obtain hy | rfl := hy
      · exact stays hy
      · exact step.lt_size_of_gives ordered (.puts puts)
    · rw [trail_cons, through, enters, puts, List.append_assoc]
    · rwa [trail_cons, idle, List.append_nil]
    · rw [trail_cons, idle, List.append_nil]
      exact (gone y hy).imp_right (mt evolves.active_before)
  | yields yields =>
    obtain ⟨ended, drawn, ended_active⟩ := yields.drawn
    have drawn : (s.bus.queue q).items = ended ++ fetched q ⟨s, d, s'⟩ ++ (s'.bus.queue q).items :=
      drawn
    have enters : placed q ⟨s, d, s'⟩ = [] := by
      simp only [placed, drawn, List.drop_eq_nil_iff, List.length_append]
      omega
    refine ⟨fun y hy => ?_, out ++ ended ++ fetched q ⟨s, d, s'⟩, ?_, ?_, fun y hy => ?_⟩
    · exact stays (drawn ▸ List.mem_append_right _ hy)
    · rw [trail_cons, through, enters, drawn]
      simp
    · rw [trail_cons]
      exact (sub.trans (List.sublist_append_left _ _)).append (.refl _)
    · rw [trail_cons, List.mem_append]
      rw [List.mem_append, List.mem_append] at hy
      obtain (hy | hy) | hy := hy
      · exact (gone y hy).imp .inl (mt evolves.active_before)
      · refine .inr (ended_active y hy (h.there y ?_))
        rw [drawn]
        exact List.mem_append_left _ (List.mem_append_left _ hy)
      · exact .inl (.inr hy)

theorem Blank.queue_eq (h : s.Blank) (q : Nat) : s.bus.queue q = default :=
  queue_eq_default (by simp [h.no_queues])

theorem Trace.ledger {P : Traffic → Deed → Traffic → Prop} (blank : s₀.Blank) (h : Trace P s₀ l s)
    (q : Nat) : Ledger q l s := by
  induction h with
  | start =>
    have none : (s₀.bus.queue q).items = [] := congrArg PullQueue.items (blank.queue_eq q)
    exact ⟨by simp [none], [], by simp [none], .refl _, by simp⟩
  | step trace step _ ih => exact ih.step step (trace.course.orderly blank.orderly)

/-- Whoever is in a queue stays there, or is fetched, or ends. -/
theorem Step.fate (h : s.Step d s') (hx : x ∈ (s.bus.queue q).items)
    (lt : x < s.bus.exchanges.size) : x ∈ (s'.bus.queue q).items ∨
      (s'.bus.exchange x).status ≠ .active ∨ x ∈ fetched q ⟨s, d, s'⟩ := by
  cases h.serves q with
  | @feeds y puts idle =>
    have puts : (s'.bus.queue q).items = (s.bus.queue q).items ++ [y] := puts
    exact .inl (puts ▸ List.mem_append_left _ hx)
  | yields yields =>
    obtain ⟨gone, drawn, ended⟩ := yields.drawn
    rw [drawn, List.mem_append, List.mem_append] at hx
    obtain (left | got) | stays := hx
    · exact .inr (.inl (ended x left lt))
    · exact .inr (.inr got)
    · exact .inl stays

theorem Trace.fate {P : Traffic → Deed → Traffic → Prop} (h : Trace P s later s')
    (hx : x ∈ (s.bus.queue q).items) (lt : x < s.bus.exchanges.size) :
    x ∈ (s'.bus.queue q).items ∨ (s'.bus.exchange x).status ≠ .active ∨
      ∃ t ∈ later, x ∈ t.fetched q := by
  induction h with
  | start => exact .inl hx
  | step trace step _ ih =>
    obtain queued | ended | ⟨t, ht, fetched⟩ := ih
    · exact (step.fate queued (Nat.lt_of_lt_of_le lt trace.evolves.size_le)).imp_right
        (.imp_right fun fetched => ⟨_, List.mem_cons_self, fetched⟩)
    · exact .inr (.inl (mt step.evolves.active_before ended))
    · exact .inr (.inr ⟨t, .tail _ ht, fetched⟩)

end Traffic

/-! ### Nothing is put into queues twice -/

namespace Transition
variable {t : Transition} {x q r : Nat}

theorem Serves.placed_eq (h : t.Serves q) (hx : x ∈ t.placed q) : t.placed q = [x] ∧ t.Puts x q := by
  cases h with
  | @feeds y puts idle =>
    have placed : t.placed q = [y] := by
      rw [Transition.placed, show _ = _ from puts, List.drop_left]
    obtain rfl := List.mem_singleton.1 (placed ▸ hx)
    exact ⟨placed, puts⟩
  | yields yields =>
    obtain ⟨gone, drawn, -⟩ := yields.drawn
    have none : t.placed q = [] := by
      simp only [Transition.placed, drawn, List.drop_eq_nil_iff, List.length_append]
      omega
    rw [none] at hx
    cases hx

theorem Puts.mem_range (h : t.Puts x q) :
    q ∈ (List.range t.after.bus.queues.length).filter
      fun q => decide ((t.after.bus.queue q).items = (t.before.bus.queue q).items ++ [x]) := by
  refine List.mem_filter.2 ⟨List.mem_range.2 (Nat.lt_of_not_le fun gone => ?_), decide_eq_true h⟩
  have items : (t.after.bus.queue q).items = [] :=
    congrArg PullQueue.items (queue_eq_default gone)
  rw [Puts, items] at h
  exact List.append_ne_nil_of_right_ne_nil _ (List.cons_ne_nil _ _) h.symm

theorem count_placed_le (h : t.Serves q) : (t.placed q).count x ≤ t.deliveries x := by
  by_cases hx : x ∈ t.placed q
  · obtain ⟨placed, puts⟩ := h.placed_eq hx
    have put : 0 < t.before.bus.puts t.after.bus x := by
      rw [Bus.puts, List.countP_eq_length_filter]
      exact List.length_pos_of_mem puts.mem_range
    rw [placed, deliveries, List.count_singleton_self]
    omega
  · rw [List.count_eq_zero.2 hx]
    exact Nat.zero_le _

theorem Puts.unique (hq : t.Puts x q) (hr : t.Puts x r) (once : t.deliveries x ≤ 1) : q = r := by
  have one : t.before.bus.puts t.after.bus x ≤ 1 := Nat.le_trans (Nat.le_add_left _ _) once
  rw [Bus.puts, List.countP_eq_length_filter] at one
  have there := hq.mem_range
  have there' := hr.mem_range
  generalize List.filter _ _ = l at one there there'
  cases l with
  | nil => cases there
  | cons a l =>
    obtain rfl : l = [] := List.length_eq_zero_iff.1 (Nat.le_zero.1 (Nat.le_of_succ_le_succ one))
    rw [List.mem_singleton.1 there, List.mem_singleton.1 there']

end Transition

namespace Traffic
variable {s s₀ : Traffic} {l : List Transition} {P : Traffic → Deed → Traffic → Prop} {x q r : Nat}
open Transition

theorem Trace.serves (h : Trace P s₀ l s) : ∀ t ∈ l, ∀ q, t.Serves q := by
  induction h with
  | start => exact fun t ht => by cases ht
  | step _ step _ ih => exact List.forall_mem_cons.2 ⟨step.serves, ih⟩

theorem Trace.dealt_le (fresh : s₀.Fresh) (h : Trace P s₀ l s) (x : Nat) :
    s.due x + (l.map (·.deliveries x)).sum ≤ min (s.bus.exchange x).hops 1 := by
  induction h with
  | start => simp [due, fresh.no_jobs, fresh.no_launches]
  | step trace step _ ih =>
    have dealt := (step.leg (trace.course.orderly fresh.orderly) x).due_le step.evolves
    simp only [List.map_cons, List.sum_cons] at dealt ⊢
    omega

theorem count_trail_placed_le (serves : ∀ t ∈ l, ∀ q, t.Serves q) :
    (trail (placed q) l).count x ≤ (l.map (·.deliveries x)).sum := by
  induction l with
  | nil => simp
  | cons t l ih =>
    obtain ⟨serves_t, serves⟩ := List.forall_mem_cons.1 serves
    have placed := count_placed_le (x := x) (serves_t q)
    have rest := ih serves
    rw [trail_cons, List.count_append, List.map_cons, List.sum_cons]
    omega

/-- Nothing is put into two queues. -/
theorem placed_apart (serves : ∀ t ∈ l, ∀ q, t.Serves q) (once : (l.map (·.deliveries x)).sum ≤ 1)
    (hq : x ∈ trail (placed q) l) (hr : x ∈ trail (placed r) l) : q = r := by
  induction l with
  | nil => cases hq
  | cons t l ih =>
    obtain ⟨serves_t, serves⟩ := List.forall_mem_cons.1 serves
    rw [List.map_cons, List.sum_cons] at once
    rw [trail_cons, List.mem_append] at hq hr
    -- it is put somewhere in one step only
    have now {q : Nat} (hq : x ∈ placed q t) : 0 < t.deliveries x :=
      Nat.lt_of_lt_of_le (List.count_pos_iff.2 hq) (count_placed_le (serves_t q))
    have earlier {q : Nat} (hq : x ∈ trail (placed q) l) : 0 < (l.map (·.deliveries x)).sum :=
      Nat.lt_of_lt_of_le (List.count_pos_iff.2 hq) (count_trail_placed_le serves)
    obtain hq | hq := hq <;> obtain hr | hr := hr
    · exact ih serves (by omega) hq hr
    · have := earlier hq
      have := now hr
      omega
    · have := now hq
      have := earlier hr
      omega
    · exact ((serves_t q).placed_eq hq).2.unique ((serves_t r).placed_eq hr).2 (by omega)

theorem Step.closed_le (h : s.Step d s') (q : Nat) (closed : (s.bus.queue q).closed = true) :
    (s'.bus.queue q).closed = true := by
  obtain ⟨b, a, queues, -, turn, -, -⟩ | ⟨-, feeds | clears⟩ := h.accepts_cases
  · rw [turn, (accepts b a).stands.closed_eq, queue_congr queues, closed]
  · exact (closed_eq feeds.scene_eq q).trans closed
  · exact clears.closed_le q closed

theorem Step.length_le (h : s.Step d s') : s.bus.queues.length ≤ s'.bus.queues.length := by
  obtain ⟨b, a, queues, -, turn, -, -⟩ | ⟨-, feeds | clears⟩ := h.accepts_cases
  · exact Nat.le_of_eq (by rw [turn, (accepts b a).stands.length_eq, queues])
  · exact Nat.le_of_eq (length_eq feeds.scene_eq).symm
  · exact clears.length_le

/-- Nobody gets connected to a queue that was there before. -/
theorem Step.connected_before (h : s.Step d s') (own : OwnQueues s d s')
    (there : q < s.bus.queues.length) {c : ComponentId}
    (connected : s'.bus.components.get? c = some (.pull q)) :
    s.bus.components.get? c = some (.pull q) := by
  have outlined := h.outlined
  have connected : s'.bus.outline.components.get? c = some (.pull q) := connected
  generalize s'.bus.outline = o at outlined connected
  cases outlined with
  | @connects _ k dl deed =>
    rw [Table.get?_insert] at connected
    split at connected
    · obtain rfl := Option.some.inj connected
      obtain deed | ⟨-, new⟩ := deed
      · exact absurd deed (own k q)
      · cases new
        exact absurd there (Nat.lt_irrefl _)
    · exact connected
  | @disconnects k cs get =>
    rw [get] at connected
    split at connected
    · cases connected
    · exact connected
  | stops get | halts get =>
    rw [get] at connected
    cases connected
  | same | selects | registers | passes | closes => exact connected

theorem Step.closed_of_disconnected (h : s.Step d s') (own : OwnQueues s d s')
    (wired : s.bus.Wired []) {c : ComponentId} (before : s.bus.components.get? c = some (.pull q))
    (after : s'.bus.components.get? c ≠ some (.pull q)) : (s'.bus.queue q).closed = true := by
  obtain ⟨there, -⟩ := wired.connected c q before
  refine Decidable.byContradiction fun opened => ?_
  obtain none | ⟨k, connected⟩ := (h.wired own wired).held q
    (Nat.lt_of_lt_of_le there h.length_le) (Bool.eq_false_iff.2 opened)
  · cases none
  · obtain rfl := wired.apart c k q before (h.connected_before own there connected)
    exact after connected

/-- Nothing is fetched from a queue that is closed. -/
theorem Step.fetched_eq_nil (h : s.Step d s') (closed : (s'.bus.queue q).closed = true) :
    fetched q ⟨s, d, s'⟩ = [] := by
  obtain ⟨b, a, queues, -, turn, turnAt, returned⟩ | ⟨none, -⟩ := h.accepts_cases
  · have yields := (accepts b a).yields q
    have opened : (b.queue q).closed = true := by
      rwa [turn, (accepts b a).stands.closed_eq] at closed
    refine List.eq_nil_iff_forall_not_mem.2 fun x hx => ?_
    simp only [fetched, turnAt, returned, Option.some.injEq] at hx
    cases (yields.got x hx).1.symm.trans opened
  · simp [fetched, none]

theorem Trace.fetched_eq_nil (h : Trace P s l s') (closed : (s.bus.queue q).closed = true) :
    (s'.bus.queue q).closed = true ∧ ∀ t ∈ l, t.fetched q = [] := by
  induction h with
  | start => exact ⟨closed, by simp⟩
  | step _ step _ ih =>
    have closed := step.closed_le q ih.1
    exact ⟨closed, List.forall_mem_cons.2 ⟨step.fetched_eq_nil closed, ih.2⟩⟩

end Traffic

/-! ### What acceptors get -/

theorem Transition.fetched_of_returned {t : Transition} {x : Nat} (h : t.returned? = some x) :
    ∃ q, x ∈ t.fetched q := by
  suffices turn : ∃ q, t.turnAt? = some q by
    obtain ⟨q, turn⟩ := turn
    exact ⟨q, mem_fetched.2 ⟨turn, h⟩⟩
  unfold returned? at h
  split at h
  · next c limit deed =>
    by_cases connected : ∃ q, t.before.bus.components.get? c = some (.pull q)
    · obtain ⟨q, connected⟩ := connected
      exact ⟨q, by simp [turnAt?, deed, connected]⟩
    · rw [accept_of_not_connected (not_exists.1 connected)] at h
      cases h
  · next a deed => exact ⟨a.queue, by simp [turnAt?, deed]⟩
  · cases h

namespace Traffic
variable {s s₀ : Traffic} {l : List Transition}
open Transition

/-- Acceptors get what is put into queues, and it is not lost. -/
structure Fetched (l : List Transition) (s : Traffic) : Prop where
  /-- What they return from a queue they return in the order in which it was put there. -/
  in_order : ∀ q, (trail (fetched q) l).Sublist (trail (placed q) l)
  /-- No two of them return the same exchange. -/
  once : ∀ x, l.countP (fun t => decide (t.returned? = some x)) ≤ 1
  /-- None returns one that has ended. -/
  active : ∀ t ∈ l, ∀ x, t.returned? = some x → (t.after.bus.exchange x).status = .active
  /-- When nobody can go on, what was put into a queue is in it, and a component is connected to
  it, or has been returned, or has ended. -/
  kept : s.Quiet → ∀ q, ∀ x ∈ trail (placed q) l,
    (x ∈ (s.bus.queue q).items ∧ ∃ c, s.bus.components.get? c = some (.pull q)) ∨
      (∃ t ∈ l, t.returned? = some x) ∨ (s.bus.exchange x).status ≠ .active
  /-- Then what was in the queue of a connection when it was taken away or replaced has ended. -/
  released : s.Quiet → ∀ t ∈ l, ∀ c q, t.before.bus.components.get? c = some (.pull q) →
    t.after.bus.components.get? c ≠ some (.pull q) →
    ∀ x ∈ (t.before.bus.queue q).items, (s.bus.exchange x).status ≠ .active

theorem count_returned_le (x : Nat) (at_q : ∀ t ∈ l, t.returned? = some x → x ∈ t.fetched q) :
    l.countP (fun t => decide (t.returned? = some x)) ≤ (trail (fetched q) l).count x := by
  induction l with
  | nil => simp
  | cons t l ih =>
    obtain ⟨here, rest⟩ := List.forall_mem_cons.1 at_q
    have le := ih rest
    rw [trail_cons, List.count_append, List.countP_cons]
    split
    · next returned =>
      have got := List.count_pos_iff.2 (here (of_decide_eq_true returned))
      omega
    · omega

section
variable {P : Traffic → Deed → Traffic → Prop} {q x : Nat}

theorem Trace.fetched_sublist (blank : s₀.Blank) (trace : Trace P s₀ l s) (q : Nat) :
    (trail (fetched q) l).Sublist (trail (placed q) l) := by
  obtain ⟨out, through, sub, -⟩ := (trace.ledger blank q).left
  rw [through]
  exact sub.trans (List.sublist_append_left _ _)

theorem Trace.deliveries_le (fresh : s₀.Fresh) (trace : Trace P s₀ l s) (x : Nat) :
    (l.map (·.deliveries x)).sum ≤ 1 := by
  have dealt := trace.dealt_le fresh x
  omega

theorem Trace.returned_once (blank : s₀.Blank) (trace : Trace P s₀ l s) (x : Nat) :
    l.countP (fun t => decide (t.returned? = some x)) ≤ 1 := by
  have serves := trace.serves
  have once := trace.deliveries_le blank.toFresh x
  have sub := trace.fetched_sublist blank
  by_cases some : ∃ t ∈ l, t.returned? = some x
  · obtain ⟨t, ht, hx⟩ := some
    obtain ⟨q, hq⟩ := fetched_of_returned hx
    -- all who return it return it from the queue it was put into
    have le := count_returned_le (q := q) x fun u hu hx => by
      obtain ⟨r, hr⟩ := fetched_of_returned hx
      obtain rfl := placed_apart serves once ((sub q).subset (mem_trail.2 ⟨t, ht, hq⟩))
        ((sub r).subset (mem_trail.2 ⟨u, hu, hr⟩))
      exact hr
    calc l.countP (fun t => decide (t.returned? = Option.some x))
        ≤ (trail (fetched q) l).count x := le
      _ ≤ (trail (placed q) l).count x := (sub q).count_le x
      _ ≤ (l.map (·.deliveries x)).sum := count_trail_placed_le serves
      _ ≤ 1 := once
  · rw [List.countP_eq_zero.2 fun t ht => by simpa using fun hx => some ⟨t, ht, hx⟩]
    exact Nat.zero_le _

theorem Trace.returned_active (trace : Trace P s₀ l s) {t : Transition} (ht : t ∈ l)
    (hx : t.returned? = some x) : (t.after.bus.exchange x).status = .active := by
  obtain ⟨q, hq⟩ := fetched_of_returned hx
  cases trace.serves t ht q with
  | feeds _ idle =>
    rw [idle] at hq
    cases hq
  | yields yields => exact (yields.got x hq).2

/-- When nobody can go on, a queue that has been closed is empty. -/
theorem Trace.items_eq_nil (blank : s₀.Blank) (trace : Trace OwnQueues s₀ l s) (quiet : s.Quiet)
    (closed : (s.bus.queue q).closed = true) : (s.bus.queue q).items = [] := by
  have attended := trace.attended blank fun _ _ _ own => own
  exact attended.2.cleared quiet.no_launches quiet.waiting closed

theorem Trace.kept (blank : s₀.Blank) (trace : Trace OwnQueues s₀ l s) (quiet : s.Quiet)
    (hx : x ∈ trail (placed q) l) :
    (x ∈ (s.bus.queue q).items ∧ ∃ c, s.bus.components.get? c = some (.pull q)) ∨
      (∃ t ∈ l, t.returned? = some x) ∨ (s.bus.exchange x).status ≠ .active := by
  obtain ⟨out, through, -, gone⟩ := (trace.ledger blank q).left
  rw [through, List.mem_append] at hx
  rcases hx with left | queued
  · rcases gone x left with fetched | ended
    · obtain ⟨t, ht, hx⟩ := mem_trail.1 fetched
      exact .inr (.inl ⟨t, ht, (mem_fetched.1 hx).2⟩)
    · exact .inr (.inr ended)
  · have opened : (s.bus.queue q).closed = false := by
      rw [← Bool.not_eq_true]
      intro closed
      rw [trace.items_eq_nil blank quiet closed] at queued
      cases queued
    have there : q < s.bus.queues.length := by
      rw [← Nat.not_le]
      intro missing
      rw [queue_eq_default missing] at queued
      cases queued
    have wired := (trace.attended blank fun _ _ _ own => own).1
    exact .inl ⟨queued, (wired.held q there opened).resolve_left List.not_mem_nil⟩

theorem Trace.released (blank : s₀.Blank) (trace : Trace OwnQueues s₀ l s) (quiet : s.Quiet)
    {t : Transition} (ht : t ∈ l) {c : ComponentId}
    (before : t.before.bus.components.get? c = some (.pull q))
    (after : t.after.bus.components.get? c ≠ some (.pull q))
    (hx : x ∈ (t.before.bus.queue q).items) : (s.bus.exchange x).status ≠ .active := by
  obtain ⟨later, earlier, rfl⟩ := List.append_of_mem ht
  obtain ⟨trace_t, step, own, rest⟩ := trace.split rfl
  have wired := (trace_t.attended blank fun _ _ _ own => own).1
  have there := (trace_t.ledger blank q).there x hx
  have closed := step.closed_of_disconnected own wired before after
  have none := step.fetched_eq_nil closed
  obtain ⟨closed, nothing⟩ := rest.fetched_eq_nil closed
  -- it is not fetched now, nor later, and in the end the queue is empty
  rcases step.fate hx there with queued | ended | fetched
  · have there := Nat.lt_of_lt_of_le there step.evolves.size_le
    rcases rest.fate queued there with queued | ended | ⟨u, hu, fetched⟩
    · rw [trace.items_eq_nil blank quiet closed] at queued
      cases queued
    · exact ended
    · rw [nothing u hu] at fetched
      cases fetched
  · exact mt rest.evolves.active_before ended
  · rw [none] at fetched
    cases fetched

end

/-- However sends, acceptors and those who take connections away and replace them get between each
other, acceptors get what is put into queues, and it is not lost. -/
theorem fetched_in_order (blank : s₀.Blank) (trace : Trace OwnQueues s₀ l s) : Fetched l s where
  in_order := trace.fetched_sublist blank
  once := trace.returned_once blank
  active _ ht _ hx := trace.returned_active ht hx
  kept quiet _ _ hx := trace.kept blank quiet hx
  released quiet _ ht _ _ before after _ hx := trace.released blank quiet ht before after hx

theorem fetched_in_order_stocked : ∃ l s, (stocked false).Blank ∧
    Trace OwnQueues (stocked false) l s ∧ s.Quiet ∧ trail (placed 0) l = [0, 1] ∧
    trail (fetched 0) l = [0] ∧ Fetched l s := by
  have blank := blank_stocked false
  have idle : Trace OwnQueues (stocked false) [] (stocked false) := .start
  have connected := idle.step (.ask (r := .connectQueue stock.component) trivial) fun _ _ => nofun
  have sent := connected.step (.ask (r := .send 0) Nat.two_pos) fun _ _ => nofun
  have tracked := sent.step (@Step.take _ (.tracker 0 false) [] [] rfl) fun _ _ => nofun
  have accepted := tracked.step (.ask (r := .accept stock.component none) trivial) fun _ _ => nofun
  have again := accepted.step (.ask (r := .send 1) Nat.one_lt_two) fun _ _ => nofun
  have followed := again.step (@Step.take _ (.tracker 1 false) [] [] rfl) fun _ _ => nofun
  have gone := followed.step (.ask (r := .disconnect stock.component) trivial) fun _ _ => nofun
  have ended := gone.step (@Step.resume _ (.tracking _) _ (.refl _)) fun _ _ => nofun
  exact ⟨_, _, blank, ended, ⟨rfl, by decide⟩, by decide, by decide, fetched_in_order blank ended⟩

end Traffic
end ServiceBus
