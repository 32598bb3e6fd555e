import ServiceBus.Proofs.Exchange.Onward

/-!
# The history of an exchange that several parties hold

Whoever holds an exchange calls on it when it likes; the exchange's lock puts the calls in some
order. `history x calls` is what becomes of them, and `Lawful` what holds of every such history: a
refused call does nothing, a refusal says why, and all others go onward (`Onward`) until one of them
ends the exchange, after which nothing changes. `history_lawful` needs nothing of the state that the
exchange starts from, so it holds of exchanges restored from any snapshot.
-/

namespace ServiceBus

/-- Whether a change is meant to end the exchange. -/
def Change.ends : Change → Bool
  | .done | .fail _ => true
  | _ => false

namespace Exchange

/-- A party's call on an exchange, with the exchange before and after it and the answer. -/
structure Call (π : Type) where
  party : π
  change : Change
  before : Exchange
  after : Exchange
  answer : Except ExchangeError Unit

variable {π : Type} {x y : Exchange} {c : Change} {k : Call π} {l : List (π × Change)}

/-- Whether the call ended the exchange. -/
def Call.isEnd (k : Call π) : Bool := k.change.ends && k.answer.isOk

/-- What becomes of the parties' calls, in the order in which they get the exchange's lock. -/
def history (x : Exchange) : List (π × Change) → List (Call π)
  | [] => []
  | (p, c) :: rest =>
    let (y, r) := x.change c
    ⟨p, c, x, y, r⟩ :: history y rest

/-- What holds of the calls on an exchange. -/
structure Lawful (h : List (Call π)) : Prop where
  refused_unchanged : ∀ k ∈ h, ∀ e, k.answer = .error e → k.after = k.before
  ended_refuses : ∀ k ∈ h, k.before.status ≠ .active →
    k.answer = .error (.illegalState k.before.id k.before.status k.change.attempt)
  active_refusal : ∀ k ∈ h, k.before.status = .active → ∀ e, k.answer = .error e →
    ∃ r, e = .illegalTransition k.before.id r
  one_end : (h.filter Call.isEnd).length ≤ 1
  unchanged_after_end : h.Pairwise fun k m => k.isEnd = true → m.after = k.after
  call_onward : ∀ k ∈ h, Onward k.before k.after
  onward : h.Pairwise fun k m => Onward k.before m.after
  dispatched_target : h.Pairwise fun k m =>
    ∀ t, k.change = .dispatch t → k.answer = .ok () →
      k.after.target = some t ∧ m.after.target = some t

/-! ### Along a history -/

theorem history_cons (x : Exchange) (p : π) (c : Change) (l : List (π × Change)) :
    x.history ((p, c) :: l) =
      ⟨p, c, x, (x.change c).1, (x.change c).2⟩ :: (x.change c).1.history l :=
  rfl

/-- Each call in a history is a change made to what the calls before it have left. -/
theorem of_mem_history (h : k ∈ x.history l) :
    Onward x k.before ∧ k.before.change k.change = (k.after, k.answer) := by
  induction l generalizing x with
  | nil => cases h
  | cons e l ih =>
    obtain ⟨p, c⟩ := e
    rw [history_cons, List.mem_cons] at h
    rcases h with rfl | h
    · exact ⟨.refl x, rfl⟩
    · obtain ⟨ho, hk⟩ := ih h
      exact ⟨(Onward.change x c).trans ho, hk⟩

/-- What a call leaves is where every later call starts from, or earlier still. -/
theorem history_pairwise (x : Exchange) (l : List (π × Change)) :
    (x.history l).Pairwise fun k m => Onward k.after m.before := by
  induction l generalizing x with
  | nil => exact .nil
  | cons e l ih =>
    obtain ⟨p, c⟩ := e
    rw [history_cons]
    exact .cons (fun m hm => (of_mem_history hm).1) (ih _)

namespace Call

theorem onward (h : k.before.change k.change = (k.after, k.answer)) : Onward k.before k.after := by
  have := Onward.change k.before k.change
  rwa [h] at this

/-- A call that ends the exchange finds it active and leaves it ended. -/
theorem ended_of_isEnd (h : k.before.change k.change = (k.after, k.answer)) (he : k.isEnd = true) :
    k.before.status = .active ∧ k.after.status ≠ .active := by
  simp only [isEnd, Bool.and_eq_true] at he
  obtain ⟨hc, ha⟩ := he
  have hok : (k.before.change k.change).2 = .ok () := by
    rw [h]
    cases hk : k.answer with
    | ok => rfl
    | error e => rw [hk] at ha; cases ha
  obtain ⟨hact, y, hm, hy⟩ := moves_of_change hok
  rw [h] at hy
  refine ⟨hact, ?_⟩
  change k.after = y.publish at hy
  rw [hy]
  generalize k.change = c at hc hm
  cases hm with
  | done satisfied => exact fun e => by cases e
  | fail cause => exact fun e => by cases e
  | setProperty | setIn | setOut | setFault | dispatch | handBack => cases hc

/-- A dispatch that is not refused sets the target and counts as a hop. -/
theorem of_dispatch {t : Endpoint} (h : k.before.change k.change = (k.after, k.answer))
    (hc : k.change = .dispatch t) (ha : k.answer = .ok ()) :
    k.after.target = some t ∧ 0 < k.after.hops := by
  rw [hc, ha] at h
  have hok : (k.before.change (.dispatch t)).2 = .ok () := by rw [h]
  obtain ⟨-, y, hm, hy⟩ := moves_of_change hok
  rw [h] at hy
  change k.after = y.publish at hy
  rw [hy]
  cases hm with
  | dispatch t owner hops input => exact ⟨rfl, Nat.one_pos⟩

/-- The answer of a call on an active exchange is no refusal, or it says what the exchange does not
allow. -/
theorem refusal_of_active {e : ExchangeError} (h : k.before.change k.change = (k.after, k.answer))
    (hs : k.before.status = .active) (he : k.answer = .error e) :
    ∃ r, e = .illegalTransition k.before.id r := by
  rcases change_cases k.before k.change with ⟨hn, -⟩ | ⟨-, r, hr⟩ | ⟨-, y, -, hy⟩
  · exact absurd hs hn
  · rw [h, Prod.mk.injEq, he] at hr
    exact ⟨r, by injection hr.2⟩
  · rw [h, Prod.mk.injEq, he] at hy
    cases hy.2

end Call

/-- Where no two elements pass a test there is at most one that does. -/
theorem length_filter_le_one {α : Type} {p : α → Bool} {l : List α}
    (h : l.Pairwise fun a b => p a = true → p b = false) : (l.filter p).length ≤ 1 := by
  induction h with
  | nil => exact Nat.zero_le 1
  | @cons a l hal _ ih =>
    by_cases ha : p a = true
    · have hl : l.filter p = [] := List.filter_eq_nil_iff.2 fun b hb => by simp [hal b hb ha]
      rw [List.filter_cons_of_pos ha, hl]
      exact Nat.le_refl 1
    · rw [List.filter_cons_of_neg ha]
      exact ih

/-- What one call leaves goes onward to where a later one starts. -/
theorem history_later (x : Exchange) (l : List (π × Change)) :
    (x.history l).Pairwise fun k m => k.before.change k.change = (k.after, k.answer) ∧
      Onward k.after m.before ∧ m.before.change m.change = (m.after, m.answer) :=
  (history_pairwise x l).imp_of_mem fun hk hm h => ⟨(of_mem_history hk).2, h, (of_mem_history hm).2⟩

/-- After the call that ends an exchange, later calls find and leave it as that one did. -/
theorem history_frozen (x : Exchange) (l : List (π × Change)) :
    (x.history l).Pairwise fun k m => k.isEnd = true →
      k.after.status ≠ .active ∧ m.before = k.after ∧ m.after = k.after := by
  refine (history_later x l).imp fun ⟨hk, h, hm⟩ he => ?_
  have hend := (Call.ended_of_isEnd hk he).2
  have hb := h.ended_kept hend
  have ha := (Call.onward hm).ended_kept (by rw [hb]; exact hend)
  exact ⟨hend, hb, ha.trans hb⟩

theorem history_one_end (x : Exchange) (l : List (π × Change)) :
    ((x.history l).filter Call.isEnd).length ≤ 1 := by
  refine length_filter_le_one (((history_later x l).and (history_frozen x l)).imp ?_)
  rintro k m ⟨⟨-, -, hm⟩, hf⟩ he
  obtain ⟨hend, hb, -⟩ := hf he
  rw [← hb] at hend
  exact Bool.eq_false_iff.2 fun he' => hend (Call.ended_of_isEnd hm he').1

/-- Whoever calls in whatever order, from whatever state, the history is lawful. -/
theorem history_lawful (x : Exchange) (l : List (π × Change)) : Lawful (x.history l) where
  refused_unchanged k hk e he := by
    have h := (of_mem_history hk).2
    have hc := change_of_error (x := k.before) (c := k.change) (e := e) (by rw [h]; exact he)
    rwa [h] at hc
  ended_refuses k hk hs := by
    have h := change_of_terminal (Status.isTerminal_iff.2 hs) k.change
    rw [(of_mem_history hk).2] at h
    exact (Prod.mk.inj h).2
  active_refusal k hk hs e he := Call.refusal_of_active (of_mem_history hk).2 hs he
  one_end := history_one_end x l
  unchanged_after_end := (history_frozen x l).imp fun h he => (h he).2.2
  call_onward k hk := Call.onward (of_mem_history hk).2
  onward := (history_later x l).imp fun ⟨hk, h, hm⟩ =>
    ((Call.onward hk).trans h).trans (Call.onward hm)
  dispatched_target := (history_later x l).imp fun ⟨hk, h, hm⟩ t hc ha => by
    obtain ⟨ht, hh⟩ := Call.of_dispatch hk hc ha
    exact ⟨ht, ((h.trans (Call.onward hm)).target_kept hh).trans ht⟩

end Exchange

end ServiceBus
