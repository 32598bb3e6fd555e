import ServiceBus.Proofs.Exchange.Shown

/-!
# Exchanges that have been dispatched

`y.Underway x t`: `x` has been dispatched to `t`, and `y` is what has become of it since. It is with
its provider, or back with the consumer and then it has a reply, and what those who wait see of it is
how it stands. Dispatching brings this about whatever state `x` was restored to, and every change
keeps it.
-/

namespace ServiceBus.Exchange
variable {x y z : Exchange} {t : Endpoint} {c : Change}

structure Underway (x : Exchange) (t : Endpoint) (y : Exchange) : Prop where
  synchronous_eq : y.synchronous = x.synchronous
  target_eq : y.target = some t
  published_eq : y.published = y.progress
  custody : (y.owner = .provider ∧ y.hops = 1) ∨
    (y.owner = .consumer ∧ y.hops = 2 ∧ y.hasReply = true)

namespace Underway

theorem hops_pos (h : Underway x t y) : 0 < y.hops := by
  rcases h.custody with ⟨-, hops⟩ | ⟨-, hops, -⟩ <;> omega

/-- With the consumer again means answered. -/
theorem returned (h : Underway x t y) (owner : y.owner = .consumer) :
    y.hops = 2 ∧ y.hasReply = true := by
  rcases h.custody with ⟨ho, -⟩ | ⟨-, hr⟩
  · rw [ho] at owner
    cases owner
  · exact hr

/-- Who waits for the end sees it. -/
theorem isComplete_iff (h : Underway x t y) :
    y.published.isComplete = true ↔ y.status ≠ .active := by
  rw [h.published_eq]
  exact isComplete_progress_iff

theorem isReplied_iff (h : Underway x t y) :
    y.published.isReplied = true ↔ y.status ≠ .active ∨ y.owner = .consumer := by
  rw [h.published_eq, isReplied_progress_iff]
  constructor
  · exact Or.imp_right And.left
  · -- back with the consumer it has changed hands twice
    rintro (ended | owner)
    · exact .inl ended
    · obtain ⟨hops, -⟩ := h.returned owner
      exact .inr ⟨owner, by omega⟩

theorem of_dispatch (hm : Moves x (.dispatch t) y) : Underway x t y.publish := by
  cases hm with
  | dispatch t owner hops input => exact ⟨rfl, rfl, rfl, .inl ⟨rfl, rfl⟩⟩

theorem moves (h : Underway x t y) (ha : y.status = .active) (hm : Moves y c z) :
    Underway x t z.publish := by
  have ho := Onward.moves ha hm
  refine ⟨ho.synchronous_eq.trans h.synchronous_eq, (ho.target_kept h.hops_pos).trans h.target_eq,
    rfl, ?_⟩
  have hreply : y.hasReply = true → z.publish.hasReply = true := ho.hasReply
  cases hm with
  | setProperty name v => exact h.custody
  | setIn m owner hops => exact absurd hops (Nat.ne_of_gt h.hops_pos)
  | setOut m | setFault m => exact h.custody.imp_right fun ⟨o, n, r⟩ => ⟨o, n, hreply r⟩
  | done satisfied => exact h.custody
  | fail cause => exact h.custody
  | dispatch t owner hops input => exact absurd hops (Nat.ne_of_gt h.hops_pos)
  | handBack owner hops reply => exact .inr ⟨rfl, rfl, reply⟩

theorem change (h : Underway x t y) (c : Change) : Underway x t (y.change c).1 := by
  rcases change_fst_cases y c with e | ⟨ha, z, hz, e⟩
  · rw [e]
    exact h
  · rw [e]
    exact h.moves ha hz

theorem leads (h : Underway x t y) (hl : Leads y z) : Underway x t z := by
  induction hl with
  | refl => exact h
  | change _ c ih => exact ih.change c

end Underway

/-- The exchange has been dispatched at some time. -/
def Sent (y : Exchange) : Prop := ∃ x t, Underway x t y

theorem Sent.leads (h : y.Sent) (hl : Leads y z) : z.Sent := by
  obtain ⟨x, t, hu⟩ := h
  exact ⟨x, t, hu.leads hl⟩

theorem Sent.shows (h : y.Sent) : y.Shows := by
  obtain ⟨x, t, underway⟩ := h
  exact underway.published_eq

theorem Sent.isComplete_iff (h : y.Sent) : y.published.isComplete = true ↔ y.status ≠ .active :=
  have ⟨_, _, underway⟩ := h
  underway.isComplete_iff

theorem Sent.isReplied_iff (h : y.Sent) :
    y.published.isReplied = true ↔ y.status ≠ .active ∨ y.owner = .consumer :=
  have ⟨_, _, underway⟩ := h
  underway.isReplied_iff

/-- The exchange has ended, or it is back with the consumer with its reply. -/
def Settled (y : Exchange) : Prop :=
  y.status ≠ .active ∨ (y.owner = .consumer ∧ y.hops = 2 ∧ y.hasReply = true)

namespace Settled

theorem change (h : y.Settled) (c : Change) : (y.change c).1.Settled := by
  rcases change_fst_cases y c with e | ⟨ha, z, hz, e⟩ <;> rw [e]
  · exact h
  obtain ⟨owner, hops, reply⟩ := h.resolve_left fun hn => hn ha
  cases hz with
  | setProperty name v => exact .inr ⟨owner, hops, reply⟩
  | done satisfied | fail cause => exact .inl fun hn => by cases hn
  | setIn m _ unsent => omega
  | dispatch t _ unsent input => omega
  | setOut m _ held | setFault m _ held | handBack held => rw [owner] at held; cases held

theorem leads (h : y.Settled) (hl : Leads y z) : z.Settled := by
  induction hl with
  | refl => exact h
  | change _ c ih => exact ih.change c

end Settled

theorem Sent.settled (h : y.Sent) (hy : y.status ≠ .active ∨ y.owner = .consumer) :
    y.Settled := by
  obtain ⟨x, t, hu⟩ := h
  exact hy.imp_right fun owner => ⟨owner, hu.returned owner⟩

end ServiceBus.Exchange
