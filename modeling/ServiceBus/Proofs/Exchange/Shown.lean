import ServiceBus.Exchange.Snapshot
import ServiceBus.Proofs.Exchange.Onward

/-!
# What is seen of an exchange

An exchange that has just been built or restored (`Made`) shows how it stands (`Shows`), and every
change publishes what it has made, so it goes on doing so (`Shows.leads`). What one can wait for
stays once it has come (`isComplete_leads`, `isReplied_leads`): what has ended is not changed any
more, and of an exchange that is back with the consumer neither party can change the owner or the
hops. This holds from any state, also from one that only a snapshot can bring about.
-/

namespace ServiceBus.Exchange
variable {x y : Exchange} {c : Change}

/-- What is published of the exchange is how it stands. -/
def Shows (x : Exchange) : Prop := x.published = x.progress

/-- The exchange has just been built from a draft, or restored from a snapshot of whatever content. -/
inductive Made : Exchange → Prop
  | build (d : Draft) (id : String) : Made (d.build id)
  | restore (s : Snapshot) (r : Registry) : Made (s.restore r)

theorem Made.shows (h : x.Made) : x.Shows := by
  cases h <;> exact rfl

theorem Shows.change (h : x.Shows) (c : Change) : (x.change c).1.Shows := by
  rcases change_fst_cases x c with e | ⟨-, y, -, e⟩ <;> rw [e]
  · exact h
  · exact published_publish y

theorem Shows.leads (h : x.Shows) (hl : Leads x y) : y.Shows := by
  induction hl with
  | refl => exact h
  | change _ c ih => exact ih.change c

/-! ### What has come stays -/

theorem isComplete_progress_iff : x.progress.isComplete = true ↔ x.status ≠ .active :=
  Status.isTerminal_iff

theorem isReplied_progress_iff :
    x.progress.isReplied = true ↔ x.status ≠ .active ∨ x.owner = .consumer ∧ 1 < x.hops := by
  rw [Progress.isReplied, Bool.or_eq_true, Bool.and_eq_true, decide_eq_true_eq, decide_eq_true_eq,
    Status.isTerminal_iff]
  rfl

theorem isComplete_leads (h : x.progress.isComplete = true) (hl : Leads x y) :
    y.progress.isComplete = true := by
  rwa [hl.onward.ended_kept (isComplete_progress_iff.1 h)]

/-- Whoever acts on an exchange that is back with the consumer leaves it there. -/
theorem isReplied_moves (back : x.owner = .consumer ∧ 1 < x.hops) (hm : Moves x c y) :
    y.progress.isReplied = true := by
  have stays : x.progress.isReplied = true := isReplied_progress_iff.2 (.inr back)
  cases hm with
  | setProperty | setIn | setOut | setFault => exact stays
  | done | fail => rfl
  | dispatch t owner hops input => exact absurd (hops ▸ back.2) (by decide)
  | handBack owner hops reply => cases owner.symm.trans back.1

theorem isReplied_change (h : x.progress.isReplied = true) (c : Change) :
    (x.change c).1.progress.isReplied = true := by
  rcases change_fst_cases x c with e | ⟨active, y, hm, e⟩ <;> rw [e]
  · exact h
  · have back := (isReplied_progress_iff.1 h).resolve_left fun ended => ended active
    show y.progress.isReplied = true
    exact isReplied_moves back hm

theorem isReplied_leads (h : x.progress.isReplied = true) (hl : Leads x y) :
    y.progress.isReplied = true := by
  induction hl with
  | refl => exact h
  | change _ c ih => exact isReplied_change ih c

end ServiceBus.Exchange
