import Mathlib.Data.List.Induction
import ServiceBus.Proofs.Registry.Withdrawals

/-!
# What the events tell

A `View` is what somebody knows who has heard of every change of a registry and nothing else. It has
the endpoints at every moment. It has the external endpoints too, except that clearing the registry
tells nobody of those it drops: the view goes on listing them until their ids are published again
(`told_calls`).
-/

namespace ServiceBus.Registry
variable {r r' : Registry} {e : Endpoint} {es : List Endpoint} {k : EndpointId} {l : List Call}
  {c : Call}

structure View where
  endpoints : Table EndpointId Endpoint
  externals : Table EndpointId Endpoint

namespace View

def empty : View := ⟨.empty, .empty⟩

def receive (v : View) : Event → View
  | .registered e => { v with endpoints := v.endpoints.insert e.id e }
  | .unregistered e => { v with endpoints := v.endpoints.erase e.id }
  | .externalRegistered e => { v with externals := v.externals.insert e.id e }
  | .externalUnregistered e => { v with externals := v.externals.erase e.id }

theorem receive_unregistered (v : View) (es : List Endpoint) :
    (es.map Event.unregistered).foldl receive v =
      { v with endpoints := es.foldl (fun t e => t.erase e.id) v.endpoints } := by
  induction es generalizing v with
  | nil => rfl
  | cons e es ih => exact ih _

end View

/-- The view of a subscriber who has been there from the start. -/
def told (r : Registry) : View := r.history.foldl View.receive .empty

/-- The changes that a call announces. -/
def news (r : Registry) : Call → List Event
  | .register e => (r.register e).toOption.toList.map fun _ => .registered e
  | .unregister c k => (r.unregister c k).2.toList.map .unregistered
  | .unregisterComponent c => (r.ofComponent c).map .unregistered
  | .registerExternal e => (r.registerExternal e).toOption.toList.map fun _ => .externalRegistered e
  | .unregisterExternal k => (r.externals.get? k).toList.map .externalUnregistered
  | .clear => r.endpoints.values.map .unregistered
  | .pin .. | .unpin _ | .link .. | .unlink _ => []

/-! ### One change -/

/-- A view that had the endpoints has them again once it receives `news`. Its external endpoints
change where those of the registry do, and come to agree with them there. -/
structure Announces (r : Registry) (news : List Event) (r' : Registry) : Prop where
  history : r'.history = r.history ++ news
  endpoints : ∀ v : View, v.endpoints = r.endpoints →
    (news.foldl View.receive v).endpoints = r'.endpoints
  externals : ∀ (v : View) (k : EndpointId),
    r'.externals.get? k = r.externals.get? k ∧
        (news.foldl View.receive v).externals.get? k = v.externals.get? k ∨
      r'.externals.get? k ≠ r.externals.get? k ∧
        (news.foldl View.receive v).externals.get? k = r'.externals.get? k

namespace Announces

theorem quiet (history : r'.history = r.history) (endpoints : r'.endpoints = r.endpoints)
    (externals : r'.externals = r.externals) : r.Announces [] r' where
  history := by rw [history, List.append_nil]
  endpoints v same := same.trans endpoints.symm
  externals v k := .inl ⟨by rw [externals], rfl⟩

theorem published (h : r.Published e r') : r.Announces [.registered e] r' where
  history := h.history
  endpoints v same := by rw [h.endpoints, ← same]; rfl
  externals v k := .inl ⟨by rw [h.externals], rfl⟩

theorem withdrawn (h : r.Withdrawn es r') : r.Announces (es.map .unregistered) r' where
  history := h.history
  endpoints v same := by rw [View.receive_unregistered, h.endpoints, same]
  externals v k := .inl ⟨by rw [h.externals], by rw [View.receive_unregistered]⟩

theorem external (vacant : r.externals.get? e.id = none) :
    r.Announces [.externalRegistered e]
      ({ r with externals := r.externals.insert e.id e }.emit (.externalRegistered e)) where
  history := rfl
  endpoints v same := same
  externals v k := by
    show (r.externals.insert e.id e).get? k = _ ∧ (v.externals.insert e.id e).get? k = _ ∨
      (r.externals.insert e.id e).get? k ≠ _ ∧
        (v.externals.insert e.id e).get? k = (r.externals.insert e.id e).get? k
    by_cases self : k = e.id
    · subst self
      simp [vacant]
    · simp [Table.get?_insert_of_ne _ self]

theorem externalGone (own : e.id = k) (live : r.externals.get? k = some e) :
    r.Announces [.externalUnregistered e]
      ({ r with externals := r.externals.erase k }.emit (.externalUnregistered e)) where
  history := rfl
  endpoints v same := same
  externals v j := by
    show (r.externals.erase k).get? j = _ ∧ (v.externals.erase e.id).get? j = _ ∨
      (r.externals.erase k).get? j ≠ _ ∧
        (v.externals.erase e.id).get? j = (r.externals.erase k).get? j
    by_cases self : j = k
    · subst self
      simp [own, live]
    · simp [own, Table.get?_erase_of_ne _ self]

end Announces

theorem registerExternal_cases (r : Registry) (e : Endpoint) :
    (∃ why, r.registerExternal e = .error why) ∨
      r.externals.get? e.id = none ∧ r.registerExternal e =
        .ok ({ r with externals := r.externals.insert e.id e }.emit (.externalRegistered e)) := by
  unfold registerExternal
  split
  · exact .inl ⟨_, rfl⟩
  · next free => exact .inr ⟨by simpa [Table.contains] using free, rfl⟩

/-- External endpoints are held under their own ids, as all endpoints are. -/
def Proxies (r : Registry) : Prop := ∀ k e, r.externals.get? k = some e → e.id = k

/-- Every call but the one that clears announces all that it does to the tables of a view. -/
theorem Filed.announces (h : r.Filed) (own : r.Proxies) (c : Call) (keeps : c ≠ .clear) :
    r.Announces (r.news c) (r.after c) := by
  cases c with
  | register e =>
    simp only [news, Registry.after]
    obtain ⟨_, _, _, turn⟩ | ⟨r', turn, -, done⟩ := r.register_cases e <;> rw [turn]
    · exact .quiet rfl rfl rfl
    · exact .published done
  | unregister c k =>
    simp only [news, Registry.after]
    obtain ⟨turn, -⟩ | ⟨e, r', turn, -, -, -, gone⟩ := h.unregister_turn c k <;> rw [turn]
    · exact .quiet rfl rfl rfl
    · exact .withdrawn gone
  | unregisterComponent c => exact .withdrawn (h.withdrawn_unregisterComponent c).1
  | clear => exact absurd rfl keeps
  | registerExternal e =>
    simp only [news, Registry.after]
    obtain ⟨_, turn⟩ | ⟨vacant, turn⟩ := r.registerExternal_cases e <;> rw [turn]
    · exact .quiet rfl rfl rfl
    · exact .external vacant
  | unregisterExternal k =>
    simp only [news, Registry.after, Registry.unregisterExternal]
    cases live : r.externals.get? k with
    | none => exact .quiet rfl rfl rfl
    | some e => exact .externalGone (own k e live) live
  | link source target =>
    simp only [news, Registry.after, Registry.link]
    split <;> exact .quiet rfl rfl rfl
  | pin | unpin | unlink => exact .quiet rfl rfl rfl

theorem Filed.proxies_after (h : r.Filed) (own : r.Proxies) (c : Call) : (r.after c).Proxies := by
  have same {r' : Registry} (externals : r'.externals = r.externals) : r'.Proxies := fun k e live =>
    own k e (externals ▸ live)
  cases c with
  | register e =>
    simp only [Registry.after]
    obtain ⟨_, _, _, turn⟩ | ⟨r', turn, -, done⟩ := r.register_cases e <;> rw [turn]
    · exact own
    · exact same done.externals
  | unregister c k =>
    simp only [Registry.after]
    obtain ⟨turn, -⟩ | ⟨e, r', turn, -, -, -, gone⟩ := h.unregister_turn c k <;> rw [turn]
    · exact own
    · exact same gone.externals
  | unregisterComponent c => exact same (h.withdrawn_unregisterComponent c).1.externals
  | clear =>
    intro k e live
    cases live
  | registerExternal e =>
    simp only [Registry.after]
    obtain ⟨_, turn⟩ | ⟨-, turn⟩ := r.registerExternal_cases e <;> rw [turn]
    · exact own
    · intro k a live
      replace live : (r.externals.insert e.id e).get? k = some a := live
      rw [Table.get?_insert] at live
      split at live
      · next self => exact Option.some.inj live ▸ self.symm
      · exact own k a live
  | unregisterExternal k =>
    simp only [Registry.after, Registry.unregisterExternal]
    split
    · exact own
    · intro j a live
      replace live : (r.externals.erase k).get? j = some a := live
      rw [Table.get?_erase] at live
      split at live
      · cases live
      · exact own j a live
  | link source target =>
    simp only [Registry.after, Registry.link]
    split <;> exact own
  | pin | unpin | unlink => exact own

theorem proxies_calls (l : List Call) : (l.foldl after .empty).Proxies := by
  induction l using List.reverseRecOn with
  | nil => exact nofun
  | append_singleton l c ih =>
    rw [List.foldl_append]
    exact (Reachable.filed ⟨l, rfl⟩).proxies_after ih c

/-! ### What clearing drops -/

/-- Clearing dropped `e`, the external endpoint under `k`, and none has been published there since. -/
def Dropped (l : List Call) (k : EndpointId) (e : Endpoint) : Prop :=
  ∃ l₁ l₂, l = l₁ ++ .clear :: l₂ ∧ (l₁.foldl after .empty).externals.get? k = some e ∧
    ∀ m, m <+: l₂ → ((l₁ ++ .clear :: m).foldl after .empty).externals.get? k = none

theorem Dropped.vacant (h : Dropped l k e) : (l.foldl after .empty).externals.get? k = none := by
  obtain ⟨l₁, l₂, rfl, -, since⟩ := h
  exact since l₂ (List.prefix_refl l₂)

theorem dropped_concat :
    Dropped (l ++ [c]) k e ↔ ((l ++ [c]).foldl after .empty).externals.get? k = none ∧
      (Dropped l k e ∨ c = .clear ∧ (l.foldl after .empty).externals.get? k = some e) := by
  constructor
  · rintro h
    refine ⟨h.vacant, ?_⟩
    obtain ⟨l₁, l₂, split, held, since⟩ := h
    rcases l₂.eq_nil_or_concat with rfl | ⟨m, d, rfl⟩
    · obtain ⟨rfl, last⟩ := List.append_inj' split rfl
      exact .inr ⟨List.singleton_inj.1 last, held⟩
    · rw [List.concat_eq_append, ← List.cons_append, ← List.append_assoc] at split
      obtain ⟨rfl, -⟩ := List.append_inj' split rfl
      exact .inl ⟨l₁, m, rfl, held, fun p pre =>
        since p (pre.trans (by rw [List.concat_eq_append]; exact List.prefix_append m [d]))⟩
  · rintro ⟨vacant, ⟨l₁, l₂, rfl, held, since⟩ | ⟨rfl, held⟩⟩
    · refine ⟨l₁, l₂ ++ [c], by simp, held, fun m pre => ?_⟩
      rcases List.prefix_concat_iff.1 pre with rfl | pre
      · simpa using vacant
      · exact since m pre
    · refine ⟨l, [], rfl, held, fun m pre => ?_⟩
      obtain rfl := List.prefix_nil.1 pre
      exact vacant

/-- The view has the endpoints, and the external endpoints with those that clearing dropped. -/
structure Follows (l : List Call) : Prop where
  endpoints : (l.foldl after .empty).told.endpoints = (l.foldl after .empty).endpoints
  externals : ∀ k e, (l.foldl after .empty).told.externals.get? k = some e ↔
    (l.foldl after .empty).externals.get? k = some e ∨ Dropped l k e

theorem told_of_history {news : List Event} (h : r'.history = r.history ++ news) :
    r'.told = news.foldl View.receive r.told := by
  rw [told, h, List.foldl_append]
  rfl

theorem Follows.concat (h : Follows l) (c : Call) : Follows (l ++ [c]) := by
  have filed : (l.foldl after .empty).Filed := Reachable.filed ⟨l, rfl⟩
  have out : (l ++ [c]).foldl after .empty = (l.foldl after .empty).after c := List.foldl_append
  by_cases cleared : c = .clear
  · obtain ⟨r', gone, turn⟩ := filed.withdrawn_clear
    subst cleared
    replace out := out.trans turn
    have told := told_of_history ((congrArg history out).trans gone.history)
    rw [View.receive_unregistered] at told
    refine ⟨?_, fun k e => ?_⟩
    · rw [told, h.endpoints, out]
      exact gone.endpoints.symm
    · have vacant : ((l ++ [Call.clear]).foldl after .empty).externals.get? k = none := by
        rw [out]
        rfl
      rw [dropped_concat, told, h.externals, vacant]
      simp [or_comm]
  · have step := filed.announces (proxies_calls l) c cleared
    rw [← out] at step
    have told := told_of_history step.history
    refine ⟨?_, fun k e => ?_⟩
    · rw [told]
      exact step.endpoints _ h.endpoints
    · rw [dropped_concat, told]
      obtain ⟨same, view⟩ | ⟨changed, view⟩ := step.externals (l.foldl after .empty).told k
      · rw [view, same, h.externals]
        constructor
        · rintro (live | dropped)
          · exact .inl live
          · exact .inr ⟨dropped.vacant, .inl dropped⟩
        · rintro (live | ⟨-, dropped | ⟨clears, -⟩⟩)
          · exact .inl live
          · exact .inr dropped
          · exact absurd clears cleared
      · rw [view]
        refine ⟨.inl, ?_⟩
        rintro (live | ⟨vacant, dropped | ⟨clears, -⟩⟩)
        · exact live
        · exact absurd (vacant.trans dropped.vacant.symm) changed
        · exact absurd clears cleared

theorem follows_calls (l : List Call) : Follows l := by
  induction l using List.reverseRecOn with
  | nil => exact ⟨rfl, fun k e => ⟨nofun, by rintro (⟨⟨⟩⟩ | ⟨l₁, l₂, split, -⟩); simp at split⟩⟩
  | append_singleton l c ih => exact ih.concat c

/-! ### Calls that do nothing -/

/-- The call is refused or has nothing to do. Publishing a live endpoint again is neither. -/
def Idle (r : Registry) (c : Call) : Prop :=
  (r.after c).endpoints = r.endpoints ∧ (r.after c).externals = r.externals ∧
    ∀ e r', c = .register e → r.register e ≠ .ok r'

theorem Withdrawn.quiet (gone : r.Withdrawn es r') (live : ∀ e ∈ es, r.get? e.id = some e)
    (same : r'.endpoints = r.endpoints) : r'.history = r.history := by
  rw [gone.history, gone.eq_nil live same]
  exact List.append_nil _

theorem Filed.quiet_of_idle (h : r.Filed) (idle : r.Idle c) : (r.after c).history = r.history := by
  obtain ⟨endpoints, externals, refused⟩ := idle
  cases c with
  | register e =>
    simp only [Registry.after]
    obtain ⟨_, _, _, turn⟩ | ⟨r', turn, -⟩ := r.register_cases e
    · rw [turn]
      rfl
    · exact absurd turn (refused e r' rfl)
  | unregister c k =>
    simp only [Registry.after] at endpoints ⊢
    obtain ⟨turn, -⟩ | ⟨e, r', turn, live, -, rfl, gone⟩ := h.unregister_turn c k
    · rw [turn]
    · rw [turn] at endpoints ⊢
      exact gone.quiet (by simpa using live) endpoints
  | unregisterComponent c =>
    refine (h.withdrawn_unregisterComponent c).1.quiet (fun e mem => ?_) endpoints
    exact h.mem_values.1 (List.mem_filter.1 mem).1
  | clear =>
    obtain ⟨r', gone, turn⟩ := h.withdrawn_clear
    simp only [Registry.after, turn] at endpoints ⊢
    exact gone.quiet (fun _ mem => h.mem_values.1 mem) endpoints
  | registerExternal e =>
    simp only [Registry.after] at externals ⊢
    obtain ⟨_, turn⟩ | ⟨vacant, turn⟩ := r.registerExternal_cases e <;> rw [turn] at externals ⊢
    · rfl
    · replace externals : r.externals.insert e.id e = r.externals := externals
      rw [← externals, Table.get?_insert_self] at vacant
      cases vacant
  | unregisterExternal k =>
    simp only [Registry.after, Registry.unregisterExternal] at externals ⊢
    cases live : r.externals.get? k with
    | none => rfl
    | some e =>
      rw [live] at externals
      replace externals : r.externals.erase k = r.externals := externals
      rw [← externals, Table.get?_erase_self] at live
      cases live
  | link source target =>
    simp only [Registry.after, Registry.link]
    split <;> rfl
  | pin | unpin | unlink => rfl

/-! ### What a subscriber knows -/

/-- After any calls the events tell what is live, and what is external up to what clearing dropped
without a word; and calls that are refused or have nothing to do tell nothing. -/
theorem told_calls (l : List Call) :
    Follows l ∧ ∀ c, (l.foldl after .empty).Idle c →
      ((l.foldl after .empty).after c).history = (l.foldl after .empty).history :=
  ⟨follows_calls l, fun _ idle => (Reachable.filed ⟨l, rfl⟩).quiet_of_idle idle⟩

/-- An external endpoint. -/
def proxy : Endpoint := ⟨⟨"gateway"⟩, .bare "Stock", "public", [], .provider, []⟩

/-- The view of a cleared registry still has the endpoint that was external. -/
theorem told_calls_dropped :
    Dropped [.registerExternal proxy, .clear] proxy.id proxy ∧
      ([Call.registerExternal proxy, .clear].foldl after .empty).told.externals.get? proxy.id =
        some proxy := by
  have dropped : Dropped [.registerExternal proxy, .clear] proxy.id proxy :=
    dropped_concat (l := [.registerExternal proxy]).2 ⟨rfl, .inr ⟨rfl, rfl⟩⟩
  exact ⟨dropped, ((told_calls [.registerExternal proxy, .clear]).1.externals _ _).2 (.inr dropped)⟩

theorem not_told_of_clear : ¬ ∀ (l : List Call) (k : EndpointId),
    (l.foldl after .empty).told.externals.get? k = (l.foldl after .empty).externals.get? k :=
  fun all => absurd (all [.registerExternal proxy, .clear] proxy.id) (by decide)

end ServiceBus.Registry
