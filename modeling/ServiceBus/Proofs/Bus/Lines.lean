import ServiceBus.Proofs.Bus.Connections

/-!
# Queues, their components and their lines

As long as every connection makes a queue of its own, the open queues are those that a component is
connected to, one component each (`Wired`). In the line at a queue stand those acceptors and closers
that have their turns there, and a closed queue is empty or has a closer (`Manned`). So when nobody
can go on a closed queue is empty: whoever is first in its line could go on (`Manned.cleared`).
-/

namespace ServiceBus
open Bus

/-- The job's place in the line at queue `q`. -/
def Job.place? (q : Nat) : Job → Option Nat
  | .accepting a => if q = a.queue then some a.ticket else none
  | .closing c => if q = c.queue then some c.ticket else none
  | _ => none

/-- Whether the call is over. -/
def Turn.isOver {γ ρ : Type} : Turn γ ρ → Bool
  | .ended _ => true
  | .waiting _ => false

namespace Bus
variable {b b' : Bus} {q : Nat} {c : ComponentId}

/-! ### Connections -/

/-- Apart from those to spare, the open queues are connected to one component each. -/
structure Wired (b : Bus) (spare : List Nat) : Prop where
  connected : ∀ c q, b.components.get? c = some (.pull q) →
    q < b.queues.length ∧ (b.queue q).closed = false ∧ q ∉ spare
  apart : ∀ c c' q, b.components.get? c = some (.pull q) →
    b.components.get? c' = some (.pull q) → c = c'
  held : ∀ q, q < b.queues.length → (b.queue q).closed = false →
    q ∈ spare ∨ ∃ c, b.components.get? c = some (.pull q)
  spared : ∀ q ∈ spare, q < b.queues.length ∧ (b.queue q).closed = false

theorem closed_closeDelivery (b : Bus) (d : Delivery) (r : Nat) :
    ((b.closeDelivery d).queue r).closed = true ↔
      (b.queue r).closed = true ∨ (d = .pull r ∧ r < b.queues.length) := by
  cases d with
  | push n =>
    show (b.queue r).closed = true ↔ _
    simp
  | pull q =>
    have closed : ((b.setQueue q { b.queue q with closed := true }).queue r).closed = true ↔
        (b.queue r).closed = true ∨ (Delivery.pull q = .pull r ∧ r < b.queues.length) := by
      rw [queue_setQueue]
      by_cases e : r = q
      · subst e
        by_cases there : r < b.queues.length <;> simp [there]
      · simp [e, Ne.symm e]
    rw [← closed]
    unfold closeDelivery
    dsimp only
    split
    · rw [(Stands.failQueued _ q).closed_eq r]
    · exact Iff.rfl

theorem length_closeDelivery (b : Bus) (d : Delivery) :
    (b.closeDelivery d).queues.length = b.queues.length := by
  cases d with
  | push n => rfl
  | pull q =>
    unfold closeDelivery
    dsimp only
    split
    · exact (Stands.failQueued _ q).length_eq.trans List.length_set
    · exact List.length_set

namespace Wired
variable {spare : List Nat}

theorem congr (h : b.Wired spare) (components : b'.components = b.components)
    (length : b'.queues.length = b.queues.length)
    (closed : ∀ q, (b'.queue q).closed = (b.queue q).closed) : b'.Wired spare := by
  obtain ⟨connected, apart, held, spared⟩ := h
  constructor <;> simpa only [components, length, closed]

theorem of_scene (h : b.Wired spare) (same : b'.scene = b.scene) : b'.Wired spare :=
  h.congr (congrArg Outline.components (outline_eq same)) (length_eq same) (closed_eq same)

theorem stands (h : b.Wired spare) (k : Stands b b') : b'.Wired spare :=
  h.congr (congrArg Outline.components k.outline_eq) k.length_eq k.closed_eq

/-- A component gets another connection, to the queue to spare if there is one, or loses the one it
has. -/
theorem replace (h : b.Wired spare) {d : Option Delivery} (c : ComponentId)
    (own : ∀ q, d = some (.pull q) ↔ q ∈ spare)
    (components : ∀ k, b'.components.get? k = if k = c then d else b.components.get? k)
    (length : b'.queues.length = b.queues.length)
    (closed : ∀ q, (b'.queue q).closed = true ↔ (b.queue q).closed = true ∨
      (b.components.get? c = some (.pull q) ∧ q < b.queues.length)) : b'.Wired [] := by
  have opened (q : Nat) : (b'.queue q).closed = false ↔ (b.queue q).closed = false ∧
      ¬ (b.components.get? c = some (.pull q) ∧ q < b.queues.length) := by
    rw [← Bool.not_eq_true, closed, not_or, Bool.not_eq_true]
  refine ⟨fun k q hk => ?_, fun k k' q hk hk' => ?_, fun q there hq => ?_, by simp⟩
  · rw [components] at hk
    rw [length, opened]
    split at hk
    · have spared := (own q).1 hk
      obtain ⟨there, isOpen⟩ := h.spared q spared
      exact ⟨there, ⟨isOpen, fun old => (h.connected c q old.1).2.2 spared⟩, List.not_mem_nil⟩
    · next ne =>
      obtain ⟨there, isOpen, -⟩ := h.connected k q hk
      exact ⟨there, ⟨isOpen, fun old => ne (h.apart k c q hk old.1)⟩, List.not_mem_nil⟩
  · rw [components] at hk hk'
    split at hk <;> split at hk'
    · next e e' => rw [e, e']
    · exact absurd ((own q).1 hk) (h.connected k' q hk').2.2
    · exact absurd ((own q).1 hk') (h.connected k q hk).2.2
    · exact h.apart k k' q hk hk'
  · rw [length] at there
    obtain ⟨isOpen, notOld⟩ := (opened q).1 hq
    obtain spared | ⟨k, hk⟩ := h.held q there isOpen
    · exact .inr ⟨c, by rw [components, if_pos rfl, (own q).2 spared]⟩
    · refine .inr ⟨k, ?_⟩
      rw [components, if_neg, hk]
      rintro rfl
      exact notOld ⟨hk, there⟩

theorem connect {d : Delivery} (h : b.Wired spare) (own : ∀ q, d = .pull q ↔ q ∈ spare)
    (c : ComponentId) : (b.connect c d).Wired [] := by
  have components : (b.connect c d).components = b.components.insert c d :=
    congrArg Outline.components (outline_connect b c d)
  refine h.replace (d := some d) c (fun q => ?_) (fun k => ?_) ?_ fun q => ?_
  · rw [Option.some.injEq, own]
  · rw [components, Table.get?_insert]
  · unfold Bus.connect
    dsimp only
    split
    · exact length_closeDelivery _ _
    · rfl
  · unfold Bus.connect
    dsimp only
    split
    · next d old =>
      rw [closed_closeDelivery, old, Option.some.injEq]
      exact Iff.rfl
    · next none =>
      rw [none]
      simp [queue]

theorem connectQueue (h : b.Wired []) (c : ComponentId) : (b.connectQueue c).Wired [] := by
  have own (q : Nat) : Delivery.pull b.queues.length = .pull q ↔ q ∈ [b.queues.length] := by
    simp [eq_comm]
  suffices added : (b.addQueue (.new b.settings.queueCapacity)).1.Wired [b.queues.length] from
    added.connect own c
  refine ⟨fun k q hk => ?_, h.apart, fun q there hq => ?_, fun q hq => ?_⟩
  · obtain ⟨there, isOpen, -⟩ := h.connected k q hk
    rw [Rewires.queue_addQueue, if_neg (Nat.ne_of_lt there)]
    refine ⟨?_, isOpen, ?_⟩
    · simp only [addQueue, List.length_append, List.length_singleton]
      omega
    · simp only [List.mem_singleton]
      omega
  · by_cases e : q = b.queues.length
    · exact .inl (List.mem_singleton.2 e)
    · rw [Rewires.queue_addQueue, if_neg e] at hq
      have old : q < b.queues.length := by
        simp only [addQueue, List.length_append, List.length_singleton] at there
        omega
      exact .inr ((h.held q old hq).resolve_left List.not_mem_nil)
  · obtain rfl := List.mem_singleton.1 hq
    rw [Rewires.queue_addQueue, if_pos rfl]
    exact ⟨by simp [addQueue], rfl⟩

theorem disconnect (h : b.Wired []) (c : ComponentId) : (b.disconnect c).1.Wired [] := by
  unfold Bus.disconnect
  split
  · exact h
  · next d old =>
    have components : ({ b with components := b.components.erase c }.closeDelivery d).components =
        b.components.erase c := congrArg Outline.components (outline_closeDelivery _ d)
    refine h.replace (d := none) c (by simp) (fun k => ?_) (length_closeDelivery _ d) fun q => ?_
    · rw [components, Table.get?_erase]
    · rw [closed_closeDelivery, old, Option.some.injEq]
      exact Iff.rfl

theorem disconnectAll (h : b.Wired []) : b.disconnectAll.Wired [] := by
  unfold Bus.disconnectAll
  generalize b.components.keys = l
  induction l generalizing b with
  | nil => exact h
  | cons c l ih => exact ih (h.disconnect c)

theorem stop (h : b.Wired []) : b.stop.Wired [] := disconnectAll (h.congr rfl rfl fun _ => rfl)

theorem halt (h : b.Wired []) : b.halt.Wired [] := h.stop.congr rfl rfl fun _ => rfl

theorem resumeShutdown (h : b.Wired []) (u : ShuttingDown) : (b.resumeShutdown u).1.Wired [] := by
  have failed := h.stands (Stands.failAll shutdownCause b.inFlight.values b)
  have turn := shuts b u
  generalize b.resumeShutdown u = r at turn
  cases turn with
  | waits => exact h
  | drained | settled => exact h.halt
  | fails => exact failed
  | failed => exact failed.halt

end Wired

/-! ### Lines -/

/-- In a line stand those who have their turns there. -/
structure Lined (b : Bus) (jobs : List Job) : Prop where
  lines : ∀ q, (b.queue q).acceptors.Perm (jobs.filterMap (Job.place? q))
  nodup : ∀ q, (b.queue q).acceptors.Nodup
  fresh : ∀ q, ∀ t ∈ (b.queue q).acceptors, t < b.fresh
  ranged : ∀ q, .closer q ∈ b.launched → q < b.queues.length

/-- Besides, a closed queue is empty or has a closer. -/
structure Manned (b : Bus) (jobs : List Job) : Prop extends Lined b jobs where
  closers : ∀ q, (b.queue q).closed = true →
    (b.queue q).items = [] ∨ .closer q ∈ b.launched ∨ ∃ t, .closing ⟨q, t⟩ ∈ jobs

namespace Manned
variable {jobs others gone come : List Job} {j : Job} {t : Nat}

theorem perm (h : b.Manned jobs) (p : jobs.Perm others) : b.Manned others where
  lines q := (h.lines q).trans (p.filterMap _)
  nodup := h.nodup
  fresh := h.fresh
  ranged := h.ranged
  closers q closed := (h.closers q closed).imp_right fun rest =>
    rest.imp_right fun ⟨t, ht⟩ => ⟨t, p.mem_iff.1 ht⟩

/-- Jobs come and go that have no place in any line. -/
theorem swap (h : b.Manned (gone ++ others)) (gone_out : ∀ j ∈ gone, ∀ q, j.place? q = none)
    (come_out : ∀ j ∈ come, ∀ q, j.place? q = none) : b.Manned (come ++ others) where
  lines q := by
    have lines := h.lines q
    rw [List.filterMap_append] at lines ⊢
    rw [List.filterMap_eq_nil_iff.2 fun j hj => gone_out j hj q] at lines
    rwa [List.filterMap_eq_nil_iff.2 fun j hj => come_out j hj q]
  nodup := h.nodup
  fresh := h.fresh
  ranged := h.ranged
  closers q closed := (h.closers q closed).imp_right fun rest => rest.imp_right fun ⟨t, ht⟩ => by
    rcases List.mem_append.1 ht with ht | ht
    · simpa [Job.place?] using gone_out _ ht q
    · exact ⟨t, List.mem_append_right _ ht⟩

/-- Another selector does not matter here. -/
theorem feeds {selector : Selector} (h : b.Manned jobs) (k : Feeds { b with selector } b') :
    b'.Manned jobs := by
  have closers (q : Nat) : .closer q ∈ b'.launched ↔ .closer q ∈ b.launched := by
    have same : b'.launched.filter (fun l => !l.isDuty) = b.launched.filter fun l => !l.isDuty :=
      congrArg Scene.closers k.scene_eq
    have mem (c : Bus) : .closer q ∈ c.launched ↔
        .closer q ∈ c.launched.filter fun l => !l.isDuty := by simp [Launch.isDuty]
    rw [mem, same, ← mem]
  refine ⟨⟨fun q => ?_, fun q => ?_, fun q t ht => ?_, fun q hq => ?_⟩, fun q closed => ?_⟩
  · rw [acceptors_eq k.scene_eq]
    exact h.lines q
  · rw [acceptors_eq k.scene_eq]
    exact h.nodup q
  · rw [acceptors_eq k.scene_eq] at ht
    exact Nat.lt_of_lt_of_le (h.fresh q t ht) k.fresh_le
  · rw [length_eq k.scene_eq]
    exact h.ranged q ((closers q).1 hq)
  · rw [closed_eq k.scene_eq] at closed
    rw [closers]
    obtain same | ⟨opened, -⟩ := k.items q
    · rw [same]
      exact h.closers q closed
    · cases opened.symm.trans closed

theorem rewires (h : b.Manned jobs) (k : Rewires b b') : b'.Manned jobs where
  lines q := by
    rw [k.acceptors_eq]
    exact h.lines q
  nodup q := by
    rw [k.acceptors_eq]
    exact h.nodup q
  fresh q t ht := by
    rw [k.acceptors_eq] at ht
    rw [k.fresh_eq]
    exact h.fresh q t ht
  ranged q hq := (k.closers q hq).elim
    (fun old => Nat.lt_of_lt_of_le (h.ranged q old) k.length_le) id
  closers q closed := by
    obtain old | empty | launched := k.closes q closed
    · obtain empty | launched | closing := h.closers q old
      · exact .inl (k.empty empty)
      · exact .inr (.inl (k.launched_le _ launched))
      · exact .inr (.inr closing)
    · exact .inl empty
    · exact .inr (.inl launched)

end Manned

theorem acceptors_leave (b : Bus) (q t r : Nat) : ((b.leave q t).queue r).acceptors =
    if r = q then (b.queue r).acceptors.erase t else (b.queue r).acceptors := by
  rw [leave, queue_setQueue]
  by_cases e : r = q
  · subst e
    rw [if_pos rfl]
    split
    · rfl
    · next missing =>
      rw [queue_eq_default (Nat.le_of_not_lt fun there => missing ⟨rfl, there⟩)]
      rfl
  · rw [if_neg fun h => e h.1, if_neg e]

theorem acceptors_join_of_mem {q t : Nat} (h : t ∈ (b.queue q).acceptors) (r : Nat) :
    ((b.join q t).queue r).acceptors = (b.queue r).acceptors := by
  rw [join, PullQueue.joinLine, if_pos h, queue_setQueue]
  split
  · next e => rw [e.1]
  · rfl

theorem acceptors_join_of_not_mem {q t : Nat} (h : t ∉ (b.queue q).acceptors)
    (there : q < b.queues.length) (r : Nat) : ((b.join q t).queue r).acceptors =
      if r = q then (b.queue r).acceptors ++ [t] else (b.queue r).acceptors := by
  rw [join, PullQueue.joinLine, if_neg h, queue_setQueue]
  by_cases e : r = q
  · subst e
    rw [if_pos ⟨rfl, there⟩, if_pos rfl]
  · rw [if_neg fun h => e h.1, if_neg e]

/-- Who leaves after joining is where he would be without joining. -/
theorem acceptors_leave_join (b : Bus) (q t r : Nat) :
    (((b.join q t).leave q t).queue r).acceptors = ((b.leave q t).queue r).acceptors := by
  rw [acceptors_leave, acceptors_leave]
  by_cases h : t ∈ (b.queue q).acceptors
  · rw [acceptors_join_of_mem h]
  by_cases there : q < b.queues.length
  · rw [acceptors_join_of_not_mem h there]
    split
    · next e =>
      subst e
      rw [List.erase_append_right _ h, List.erase_of_not_mem h]
      simp
    · rfl
  · have same : (b.join q t).queues = b.queues := List.set_eq_of_length_le (Nat.le_of_not_lt there)
    rw [queue_congr same]

/-- Somebody has had a turn at queue `q` with this ticket: he has left the line, if his call is over,
and otherwise he is in it. -/
structure Attends (b : Bus) (q t : Nat) (left : Bool) (b' : Bus) : Prop extends Stands b b' where
  empty : ∀ r, (b.queue r).items = [] → (b'.queue r).items = []
  acceptors_eq : ∀ r, (b'.queue r).acceptors =
    if left = true then ((b.leave q t).queue r).acceptors else ((b.join q t).queue r).acceptors

theorem Draws.empty {got : List Nat} (h : Draws b q got b') (r : Nat)
    (empty : (b.queue r).items = []) : (b'.queue r).items = [] := by
  by_cases e : r = q
  · subst e
    obtain ⟨gone, drawn, -⟩ := h.drawn
    rw [empty] at drawn
    exact (List.append_eq_nil_iff.1 drawn.symm).2
  · rw [h.others_eq r e, empty]

theorem Accepts.attends {a : Accepting} {r : Bus × Turn Accepting AcceptResult}
    (h : Accepts b a r) : Attends b a.queue a.ticket r.2.isOver r.1 := by
  have stands := h.stands
  have joined := Clears.join b a.queue a.ticket
  -- whoever leaves after drawing leaves a line that the drawing has left alone
  have left {got : List Nat} {b' : Bus} (draws : Draws (b.join a.queue a.ticket) a.queue got b')
      (r : Nat) : ((b'.leave a.queue a.ticket).queue r).acceptors =
        ((b.leave a.queue a.ticket).queue r).acceptors := by
    rw [← acceptors_leave_join b, acceptors_leave, acceptors_leave, draws.acceptors_eq]
  have empty {got : List Nat} {b' : Bus} (draws : Draws (b.join a.queue a.ticket) a.queue got b')
      (r : Nat) (h : (b.queue r).items = []) :
      ((b'.leave a.queue a.ticket).queue r).items = [] :=
    (Clears.leave b' a.queue a.ticket).empty (draws.empty r (joined.empty h))
  cases h with
  | refused => exact { stands with
      empty := fun r h => (Clears.leave b a.queue a.ticket).empty h
      acceptors_eq := fun r => rfl }
  | takes _ draws => exact { stands with empty := empty draws, acceptors_eq := left draws }
  | expires draws => exact { stands with empty := empty draws, acceptors_eq := left draws }
  | waits draws => exact { stands with
      empty := fun r h => draws.empty r (joined.empty h)
      acceptors_eq := draws.acceptors_eq }

theorem attends_resumeClosing (b : Bus) (c : Closing) :
    Attends b c.queue c.ticket (b.resumeClosing c).2.isOver (b.resumeClosing c).1 ∧
      ((b.resumeClosing c).2.isOver = true → ((b.resumeClosing c).1.queue c.queue).items = []) := by
  have stands := Stands.resumeClosing b c
  have empty (r : Nat) := (Clears.resumeClosing b c).empty (q := r)
  obtain h | h := resumeClosing_cases b c <;> rw [h] at stands empty ⊢
  · have failed := Rewires.failQueued (b.join c.queue c.ticket) c.queue
    refine ⟨{ stands with empty := empty, acceptors_eq := fun r => ?_ }, fun _ => ?_⟩
    · show ((Bus.leave _ _ _).queue r).acceptors = ((b.leave c.queue c.ticket).queue r).acceptors
      rw [← acceptors_leave_join b, acceptors_leave, acceptors_leave, failed.acceptors_eq]
    · exact (Clears.leave _ c.queue c.ticket).empty (Rewires.items_failQueued _ _)
  · exact ⟨{ stands with empty := empty, acceptors_eq := fun r => rfl }, nofun⟩

section
variable {jobs others : List Job} {j : Job} {q t : Nat} {left : Bool}

/-- Somebody who has been in line has a turn there. -/
theorem Lined.attends (h : b.Lined (j :: others))
    (place : ∀ r, j.place? r = if r = q then some t else none) (k : Attends b q t left b') :
    b'.Lined ((if left = true then [] else [j]) ++ others) := by
  have mem : t ∈ (b.queue q).acceptors := by
    refine (h.lines q).mem_iff.2 ?_
    rw [List.filterMap_cons_some (by rw [place, if_pos rfl])]
    exact List.mem_cons_self
  have acceptors (r : Nat) : (b'.queue r).acceptors =
      if left = true ∧ r = q then (b.queue r).acceptors.erase t else (b.queue r).acceptors := by
    rw [k.acceptors_eq, acceptors_leave, acceptors_join_of_mem mem]
    cases left <;> simp
  refine ⟨fun r => ?_, fun r => ?_, fun r u hu => ?_, fun r hr => ?_⟩
  · have lines := h.lines r
    rw [acceptors]
    cases left with
    | false => exact lines
    | true =>
      by_cases e : r = q
      · subst e
        rw [List.filterMap_cons_some (by rw [place, if_pos rfl])] at lines
        rw [if_pos ⟨rfl, rfl⟩]
        simpa using lines.erase t
      · rw [List.filterMap_cons_none (by rw [place, if_neg e])] at lines
        rw [if_neg fun h => e h.2]
        exact lines
  · rw [acceptors]
    split
    · exact (h.nodup r).erase t
    · exact h.nodup r
  · refine Nat.lt_of_lt_of_le (h.fresh r u ?_) k.fresh_le
    rw [acceptors] at hu
    split at hu
    · exact List.mem_of_mem_erase hu
    · exact hu
  · rw [k.launched_eq] at hr
    rw [k.length_eq]
    exact h.ranged r hr

/-- Somebody comes to the line and has his first turn. -/
theorem Lined.joins (h : b.Lined jobs) (place : ∀ r, j.place? r = if r = q then some t else none)
    (new : ∀ r, t ∉ (b.queue r).acceptors) (taken : t < b.fresh) (there : q < b.queues.length)
    (k : Attends b q t left b') : b'.Lined ((if left = true then [] else [j]) ++ jobs) := by
  have acceptors (r : Nat) : (b'.queue r).acceptors = if left = false ∧ r = q then
      (b.queue r).acceptors ++ [t] else (b.queue r).acceptors := by
    rw [k.acceptors_eq, acceptors_leave, List.erase_of_not_mem (new r), ite_self,
      acceptors_join_of_not_mem (new q) there]
    cases left <;> simp
  refine ⟨fun r => ?_, fun r => ?_, fun r u hu => ?_, fun r hr => ?_⟩
  · rw [acceptors]
    cases left with
    | true => exact h.lines r
    | false =>
      show List.Perm _ ((j :: jobs).filterMap _)
      by_cases e : r = q
      · rw [if_pos ⟨rfl, e⟩, List.filterMap_cons_some (by rw [place, if_pos e])]
        exact (List.perm_append_singleton t _).trans ((h.lines r).cons t)
      · rw [if_neg fun h => e h.2, List.filterMap_cons_none (by rw [place, if_neg e])]
        exact h.lines r
  · rw [acceptors]
    split
    · refine List.nodup_append.2 ⟨h.nodup r, by simp, fun u hu v hv e => ?_⟩
      exact new r (List.mem_singleton.1 hv ▸ e ▸ hu)
    · exact h.nodup r
  · refine Nat.lt_of_lt_of_le ?_ k.fresh_le
    rw [acceptors] at hu
    split at hu
    · rcases List.mem_append.1 hu with hu | hu
      · exact h.fresh r u hu
      · exact List.mem_singleton.1 hu ▸ taken
    · exact h.fresh r u hu
  · rw [k.launched_eq] at hr
    rw [k.length_eq]
    exact h.ranged r hr

theorem Manned.closers_attends (h : b.Manned jobs) (k : Attends b q t left b')
    (kept : ∀ r t, .closing ⟨r, t⟩ ∈ jobs → .closing ⟨r, t⟩ ∈ others ∨ (b'.queue r).items = [])
    (r : Nat) (closed : (b'.queue r).closed = true) :
    (b'.queue r).items = [] ∨ .closer r ∈ b'.launched ∨ ∃ t, .closing ⟨r, t⟩ ∈ others := by
  rw [k.closed_eq] at closed
  rw [k.launched_eq]
  obtain empty | launched | ⟨t, ht⟩ := h.closers r closed
  · exact .inl (k.empty r empty)
  · exact .inr (.inl launched)
  · exact (kept r t ht).elim (fun ht => .inr (.inr ⟨t, ht⟩)) .inl

theorem Accepts.jobs_eq {a : Accepting} {r : Bus × Turn Accepting AcceptResult} (h : Accepts b a r) :
    r.2.jobs .accepting = if r.2.isOver = true then [] else [.accepting a] := by
  cases h <;> rfl

theorem Manned.resumeAccept {a : Accepting} (h : b.Manned (.accepting a :: others)) :
    (b.resumeAccept a).1.Manned ((b.resumeAccept a).2.jobs .accepting ++ others) := by
  have turn := accepts b a
  have attends := turn.attends
  rw [turn.jobs_eq]
  refine ⟨h.toLined.attends (fun r => rfl) attends, h.closers_attends attends fun r t ht => ?_⟩
  rcases List.mem_cons.1 ht with e | ht
  · cases e
  · exact .inl (List.mem_append_right _ ht)

theorem Manned.accept {c : ComponentId} {limit : Option Nat} (h : b.Manned jobs)
    (wired : b.Wired []) :
    (b.accept c limit).1.Manned ((b.accept c limit).2.jobs .accepting ++ jobs) := by
  unfold Bus.accept
  split
  · next q connected =>
    have still : Still b b.take.1 := .of_eq rfl rfl (Nat.le_succ _)
    have taken : b.take.1.Manned jobs := h.feeds still.feeds
    have turn := accepts b.take.1 ⟨c, q, b.fresh, limit.map fun ms => (ms, b.now + ms)⟩
    have attends := turn.attends
    show (b.take.1.resumeAccept _).1.Manned ((b.take.1.resumeAccept _).2.jobs _ ++ jobs)
    rw [turn.jobs_eq]
    refine ⟨taken.toLined.joins (fun r => rfl) (fun r hr => ?_) (Nat.lt_succ_self _)
      (wired.connected c q connected).1 attends, taken.closers_attends attends fun r t ht =>
        .inl (List.mem_append_right _ ht)⟩
    exact Nat.lt_irrefl _ (h.fresh r _ hr)
  · exact h

theorem jobs_resumeClosing (b : Bus) (c : Closing) : (b.resumeClosing c).2.jobs .closing =
    if (b.resumeClosing c).2.isOver = true then [] else [.closing c] := by
  obtain h | h := resumeClosing_cases b c <;> rw [h] <;> rfl

theorem Manned.resumeClosing {c : Closing} (h : b.Manned (.closing c :: others)) :
    (b.resumeClosing c).1.Manned ((b.resumeClosing c).2.jobs .closing ++ others) := by
  obtain ⟨attends, cleared⟩ := attends_resumeClosing b c
  rw [jobs_resumeClosing]
  refine ⟨h.toLined.attends (fun r => rfl) attends, h.closers_attends attends fun r t ht => ?_⟩
  rcases List.mem_cons.1 ht with e | ht
  · obtain rfl := Job.closing.inj e
    split
    · next left => exact .inr (cleared left)
    · exact .inl List.mem_cons_self
  · exact .inl (List.mem_append_right _ ht)

/-- A closer that has been launched comes to its line. -/
theorem Manned.close {before after : List Launch} (h : b.Manned jobs)
    (launched : b.launched = before ++ .closer q :: after) :
    ((b.leaving (before ++ after)).close q).1.Manned
      (((b.leaving (before ++ after)).close q).2.jobs .closing ++ jobs) := by
  have closer : .closer q ∈ b.launched := launched ▸ List.mem_append_right _ List.mem_cons_self
  have taken : (b.leaving (before ++ after)).take.1.Lined jobs := by
    refine ⟨h.lines, h.nodup, fun r u hu => Nat.lt_succ_of_lt (h.fresh r u hu), fun r hr => ?_⟩
    refine h.ranged r ?_
    rw [launched]
    exact (List.mem_append.1 hr).elim (List.mem_append_left _) fun hr =>
      List.mem_append_right _ (.tail _ hr)
  obtain ⟨attends, cleared⟩ :=
    attends_resumeClosing (b.leaving (before ++ after)).take.1 ⟨q, b.fresh⟩
  show ((b.leaving (before ++ after)).take.1.resumeClosing ⟨q, b.fresh⟩).1.Manned
    (((b.leaving (before ++ after)).take.1.resumeClosing ⟨q, b.fresh⟩).2.jobs _ ++ jobs)
  rw [jobs_resumeClosing]
  refine ⟨taken.joins (fun r => rfl) (fun r hr => Nat.lt_irrefl _ (h.fresh r _ hr))
    (Nat.lt_succ_self _) (h.ranged q closer) attends, fun r closed => ?_⟩
  by_cases e : r = q
  · subst e
    split
    · next left => exact .inl (cleared left)
    · exact .inr (.inr ⟨_, List.mem_cons_self⟩)
  · rw [attends.closed_eq] at closed
    rw [attends.launched_eq]
    obtain empty | hr | ⟨t, ht⟩ := h.closers r closed
    · exact .inl (attends.empty r empty)
    · refine .inr (.inl ?_)
      rw [launched] at hr
      simpa [Ne.symm e, leaving, Bus.take, e] using hr
    · exact .inr (.inr ⟨t, List.mem_append_right _ ht⟩)

theorem Manned.abandonAccept {a : Accepting} (h : b.Manned (.accepting a :: others)) :
    (b.abandonAccept a).Manned others := by
  have attends : Attends b a.queue a.ticket true (b.abandonAccept a) :=
    { Stands.leave b a.queue a.ticket with
      empty := fun r => (Clears.leave b a.queue a.ticket).empty
      acceptors_eq := fun r => rfl }
  refine ⟨h.toLined.attends (fun r => rfl) attends, h.closers_attends attends fun r t ht => ?_⟩
  rcases List.mem_cons.1 ht with e | ht
  · cases e
  · exact .inl ht

/-- When nobody can go on, a closed queue is empty: whoever is first in its line could go on. -/
theorem Manned.cleared (h : b.Manned jobs) (launched : b.launched = [])
    (waiting : ∀ j ∈ jobs, ∀ w ∈ j.waits, b.holds w = false) (closed : (b.queue q).closed = true) :
    (b.queue q).items = [] := by
  obtain empty | closer | ⟨t, closing⟩ := h.closers q closed
  · exact empty
  · rw [launched] at closer
    cases closer
  have inLine : t ∈ (b.queue q).acceptors := (h.lines q).mem_iff.2
    (List.mem_filterMap.2 ⟨_, closing, if_pos rfl⟩)
  cases line : (b.queue q).acceptors with
  | nil =>
    rw [line] at inLine
    cases inLine
  | cons u rest =>
    have first : u ∈ (b.queue q).acceptors := line ▸ List.mem_cons_self
    obtain ⟨j, hj, place⟩ := List.mem_filterMap.1 ((h.lines q).mem_iff.1 first)
    cases j with
    | accepting a =>
      obtain ⟨rfl, -⟩ : q = a.queue ∧ a.ticket = u := by
        simpa [Job.place?] using place
      have opened : (b.queue a.queue).closed = false :=
        waiting _ hj (.closed a.queue) (by simp [Job.waits, Accepting.waits])
      cases opened.symm.trans closed
    | closing c =>
      obtain ⟨rfl, rfl⟩ : q = c.queue ∧ c.ticket = u := by
        simpa [Job.place?] using place
      have behind : (b.queue c.queue).mayTake c.ticket = false :=
        waiting _ hj _ (List.mem_singleton.2 rfl)
      simp [PullQueue.mayTake, line] at behind
    | _ => cases place

end
end Bus

/-! ### Steps -/

namespace Traffic
variable {s s' s₀ : Traffic} {d : Deed} {l : List Transition}
  {P : Traffic → Deed → Traffic → Prop}
open Bus

/-- Every connection makes a queue of its own. -/
def OwnQueues (_ : Traffic) (d : Deed) (_ : Traffic) : Prop :=
  ∀ c q, d ≠ .ask (.connect c (.pull q))

theorem Step.wired (h : s.Step d s') (own : OwnQueues s d s') (wired : s.bus.Wired []) :
    s'.bus.Wired [] := by
  by_cases loud : d.isPlain = false
  · have picked : { s.bus with selector := s.bus.selectorAfter d }.Wired [] :=
      wired.congr rfl rfl fun _ => rfl
    exact picked.of_scene (h.feeds loud).scene_eq
  have plain : d.isPlain = true := eq_true_of_ne_false loud
  cases h with
  | @ask r proper =>
    cases r with
    | watch x g limit =>
      show (s.bus.watch x g limit).1.Wired []
      rwa [watch, resumeWatch_fst]
    | accept c limit => exact wired.stands (.accept s.bus c limit)
    | connect c dl =>
      cases dl with
      | push n => exact wired.connect (by simp) c
      | pull q => exact absurd rfl (own c q)
    | connectQueue c => exact wired.connectQueue c
    | disconnect c => exact wired.disconnect c
    | drain limit =>
      show (s.bus.drain _).1.Wired []
      rwa [drain_fst]
    | failInFlight cause => exact wired.stands (.failAll cause _ s.bus)
    | stop => exact wired.stop
    | shutdown limit =>
      have begun : s.bus.beginShutdown.Wired [] := wired.congr rfl rfl fun _ => rfl
      exact begun.resumeShutdown _
    | create | change | beginShutdown | registry => exact wired.congr rfl rfl fun _ => rfl
    | send | respond | retrieve => cases plain
  | @take l before after launched =>
    cases l with
    | tracker | processor => cases plain
    | closer q =>
      have left : (s.bus.leaving (before ++ after)).take.1.Wired [] :=
        wired.congr rfl rfl fun _ => rfl
      exact left.stands (.resumeClosing _ _)
  | @resume j rest job =>
    cases j with
    | watching w =>
      show (s.bus.resumeWatch w).1.Wired []
      rwa [resumeWatch_fst]
    | draining d =>
      show (s.bus.drain d).1.Wired []
      rwa [drain_fst]
    | accepting a => exact wired.stands (accepts s.bus a).stands
    | shuttingDown u => exact wired.resumeShutdown u
    | closing c => exact wired.stands (.resumeClosing s.bus c)
    | processing => exact wired
    | sending | retrieving | tracking => cases plain
  | @abandon j rest call job =>
    cases j with
    | accepting a => exact wired.stands (.leave s.bus a.queue a.ticket)
    | sending c =>
      cases c with
      | queueing x c q ticket =>
        exact wired.of_scene (Still.forgo s.bus q (some ticket)).scene_eq
      | _ => exact wired
    | _ => exact wired
  | finish | serve => cases plain
  | pass => exact wired.congr rfl rfl fun _ => rfl

/-- Who comes and goes at a step apart from those in line has no place in any. -/
theorem Step.apart (h : s.Step d s') (apart : d.isInLine = false) : ∃ gone come others,
    s.jobs.Perm (gone ++ others) ∧ s'.jobs = come ++ others ∧
      (∀ j ∈ gone, ∀ q, j.place? q = none) ∧ ∀ j ∈ come, ∀ q, j.place? q = none := by
  have jobs {γ ρ : Type} {f : γ → Job} (out : ∀ c q, (f c).place? q = none) (t : Turn γ ρ) :
      ∀ j ∈ t.jobs f, ∀ q, j.place? q = none := by
    intro j hj
    obtain ⟨c, -, rfl⟩ := Turn.mem_jobs.1 hj
    exact out c
  have none : ∀ j ∈ ([] : List Job), ∀ q, j.place? q = none := fun j hj => by cases hj
  cases h with
  | @ask r proper =>
    refine ⟨[], _, s.jobs, .refl _, rfl, none, ?_⟩
    cases r with
    | accept => cases apart
    | send | respond | watch | retrieve | drain | shutdown => exact jobs (fun c q => rfl) _
    | _ => exact none
  | @take l before after launched =>
    refine ⟨[], _, s.jobs, .refl _, rfl, none, ?_⟩
    cases l with
    | tracker => exact jobs (fun c q => rfl) _
    | processor => exact List.forall_mem_singleton.2 fun q => rfl
    | closer => cases apart
  | @resume j rest job =>
    refine ⟨[j], _, rest, job, rfl, ?_, ?_⟩ <;> cases j with
    | accepting | closing => cases apart
    | processing => exact List.forall_mem_singleton.2 fun q => rfl
    | _ =>
      first
        | exact List.forall_mem_singleton.2 fun q => rfl
        | exact jobs (fun c q => rfl) _
  | finish o job =>
    exact ⟨[_], [], _, job, rfl, List.forall_mem_singleton.2 fun q => rfl, none⟩
  | @abandon j rest call job =>
    refine ⟨[j], [], rest, job, rfl, List.forall_mem_singleton.2 fun q => ?_, none⟩
    cases j with
    | accepting => cases apart
    | closing => cases call
    | _ => rfl
  | serve | pass => exact ⟨[], [], s.jobs, .refl _, rfl, none, none⟩

theorem Step.manned (h : s.Step d s') (wired : s.bus.Wired []) (manned : s.bus.Manned s.jobs) :
    s'.bus.Manned s'.jobs := by
  by_cases apart : d.isInLine = false
  · obtain ⟨gone, come, others, job, jobs, gone_out, come_out⟩ := h.apart apart
    rw [jobs]
    refine Bus.Manned.swap ?_ gone_out come_out
    by_cases loud : d.isPlain = false
    · exact (manned.feeds (h.feeds loud)).perm job
    · exact (manned.rewires (h.rewires (eq_true_of_ne_false loud) apart)).perm job
  cases h with
  | @ask r proper =>
    cases r with
    | accept c limit => exact manned.accept wired
    | _ => exact absurd rfl apart
  | @take l before after launched =>
    cases l with
    | closer q => exact manned.close launched
    | _ => exact absurd rfl apart
  | @resume j rest job =>
    cases j with
    | accepting a => exact (manned.perm job).resumeAccept
    | closing c => exact (manned.perm job).resumeClosing
    | _ => exact absurd rfl apart
  | @abandon j rest call job =>
    cases j with
    | accepting a => exact (manned.perm job).abandonAccept
    | _ => exact absurd rfl apart
  | finish | serve | pass => exact absurd rfl apart

/-- Nothing has been connected yet either. -/
structure Blank (s : Traffic) : Prop extends Fresh s where
  no_components : ∀ c, s.bus.components.get? c = none
  no_queues : s.bus.queues = []

/-- A bus with two requests to `stock`, whose component has not been connected yet. A queue on it has
room for one exchange. -/
def stocked (synchronous : Bool) : Traffic where
  bus := { Bus.new .first id ⟨false, 1000, 1, none⟩ with
    registry := [Registry.Call.register stock].foldl Registry.after .empty
    exchanges := Array.replicate 2 { (default : Exchange) with
      pattern := .inOut, synchronous, owner := .consumer, target := some stock
      input := some .empty } }
  jobs := []
  log := []

theorem blank_stocked (synchronous : Bool) : (stocked synchronous).Blank :=
  ⟨⟨rfl, rfl, rfl, rfl⟩, fun _ => rfl, rfl⟩

theorem Blank.wired (h : s.Blank) : s.bus.Wired [] where
  connected c q hc := by cases (h.no_components c).symm.trans hc
  apart c c' q hc := by cases (h.no_components c).symm.trans hc
  held q there := by simp [h.no_queues] at there
  spared q hq := by cases hq

theorem Blank.manned (h : s.Blank) : s.bus.Manned s.jobs := by
  have queue (q : Nat) : s.bus.queue q = default := queue_eq_default (by simp [h.no_queues])
  refine ⟨⟨fun q => ?_, fun q => ?_, fun q t ht => ?_, fun q hq => ?_⟩, fun q closed => ?_⟩
  · rw [queue, h.no_jobs]
    exact .refl _
  · rw [queue]
    exact List.nodup_nil
  · rw [queue] at ht
    cases ht
  · rw [h.no_launches] at hq
    cases hq
  · rw [queue] at closed
    cases closed

theorem Trace.attended (blank : s₀.Blank) (own : ∀ s d s', P s d s' → OwnQueues s d s')
    (h : Trace P s₀ l s) : s.bus.Wired [] ∧ s.bus.Manned s.jobs := by
  induction h with
  | start => exact ⟨blank.wired, blank.manned⟩
  | step _ step meets ih =>
    obtain ⟨wired, manned⟩ := ih
    exact ⟨step.wired (own _ _ _ meets) wired, step.manned wired manned⟩

end Traffic
end ServiceBus
