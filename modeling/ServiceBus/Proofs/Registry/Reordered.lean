import ServiceBus.Proofs.Registry.Mirror
import ServiceBus.Proofs.Registry.Resolution

/-!
# Resolution and the order of the tables

Nothing is promised about the order in which an index lists its ids, or the links are gone through:
registries with the `SameContents` differ in nothing else. What a reference may resolve to is a fact
about the contents (`Eligible`), and whatever is eligible is the answer in some order, so the
contents determine the answer just where no two endpoints are eligible (`Reachable.reordered`). An
endpoint that is named is alone; of those that are searched for, several may spell the same address.
-/

namespace ServiceBus

namespace Table
variable {κ α : Type} [DecidableEq κ]

/-- The table with the entry of a key at the front. -/
def front (t : Table κ α) (k : κ) (a : α) : Table κ α where
  entries := (k, a) :: (t.erase k).entries
  distinct := by
    refine List.nodup_cons.2 ⟨fun mem => ?_, (t.erase k).distinct⟩
    obtain ⟨b, held⟩ := (t.erase k).mem_keys_iff.1 mem
    rw [get?_erase_self] at held
    cases held

theorem get?_front (t : Table κ α) {k : κ} {a : α} (h : t.get? k = some a) (x : κ) :
    (t.front k a).get? x = t.get? x := by
  have step : (t.front k a).get? x = if k = x then some a else (t.erase k).get? x := rfl
  rw [step]
  split
  · next same => rw [← same, h]
  · next other => exact t.get?_erase_of_ne (Ne.symm other)

theorem get?_insert_comm (t : Table κ α) {k j : κ} (h : k ≠ j) (a b : α) (x : κ) :
    ((t.insert k a).insert j b).get? x = ((t.insert j b).insert k a).get? x := by
  simp only [get?_insert]
  split
  · next same => rw [if_neg (same ▸ h.symm)]
  · rfl

end Table

namespace Index
variable {x y : Index} {n m : QualifiedName} {k : EndpointId}
  {p : QualifiedName → EndpointId → Prop}

theorem filed?_of_mem (h : k ∈ x.ids n) : x.filed? n = some ↑(x.ids n) := by
  unfold filed? ids at *
  cases held : x.get? n with
  | none => rw [held] at h; cases h
  | some ks => rfl

theorem coe_ids (x : Index) (n : QualifiedName) :
    (x.ids n : Multiset EndpointId) = (x.filed? n).getD 0 := by
  unfold ids filed?
  cases x.get? n <;> rfl

theorem ids_perm (same : y.filed? n = x.filed? n) : (y.ids n).Perm (x.ids n) :=
  Multiset.coe_eq_coe.1 (by rw [coe_ids, coe_ids, same])

theorem get?_eq_nil_iff : x.get? n = some [] ↔ x.filed? n = some 0 := by
  unfold filed?
  cases x.get? n <;> simp

theorem Lists.of_filed? (h : x.Lists p) (same : ∀ n, y.filed? n = x.filed? n) : y.Lists p where
  mem_iff n k := (ids_perm (same n)).mem_iff.trans (h.mem_iff n k)
  nodup n := (ids_perm (same n)).nodup_iff.2 (h.nodup n)
  pruned n empty := h.pruned n (get?_eq_nil_iff.2 ((same n).symm.trans (get?_eq_nil_iff.1 empty)))

/-- What an index lists determines it up to the order. -/
theorem Lists.filed?_congr (h : x.Lists p) (h' : y.Lists p) (n : QualifiedName) :
    y.filed? n = x.filed? n :=
  (h'.filed?_eq (h.nodup n) (h.mem_iff n)).trans (h.filed?_eq (h.nodup n) (h.mem_iff n)).symm

/-- The index with an id at the front of the list it is in. -/
def front (x : Index) (n : QualifiedName) (k : EndpointId) : Index :=
  x.insert n (k :: (x.ids n).erase k)

theorem ids_front : (x.front n k).ids n = k :: (x.ids n).erase k := by
  rw [front, ids_insert, if_pos rfl]

theorem filed?_front (h : k ∈ x.ids n) (m : QualifiedName) :
    (x.front n k).filed? m = x.filed? m := by
  by_cases same : m = n
  · subst same
    have perm := List.perm_cons_erase h
    rw [filed?_of_mem h, filed?_of_mem (ids_front ▸ List.mem_cons_self), ids_front,
      Multiset.coe_eq_coe.2 perm]
  · unfold filed? front
    rw [Table.get?_insert_of_ne x same]

end Index

namespace Registry
variable {r r' : Registry} {c d e : Endpoint} {k : EndpointId} {s : QualifiedName} {ref : Reference}

/-! ### Registries that differ in the order only -/

/-- The tables hold the same under each key, and the indices file the same ids under each name. -/
structure SameContents (r r' : Registry) : Prop where
  endpoints : ∀ k, r'.get? k = r.get? k
  services : ∀ s, r'.byService.filed? s = r.byService.filed? s
  interfaces : ∀ i, r'.byInterface.filed? i = r.byInterface.filed? i
  pins : ∀ i, r'.pins.get? i = r.pins.get? i
  links : ∀ k, r'.links.get? k = r.links.get? k
  externals : ∀ k, r'.externals.get? k = r.externals.get? k

namespace SameContents

theorem refl (r : Registry) : r.SameContents r :=
  ⟨fun _ => rfl, fun _ => rfl, fun _ => rfl, fun _ => rfl, fun _ => rfl, fun _ => rfl⟩

theorem symm (h : r.SameContents r') : r'.SameContents r :=
  ⟨fun k => (h.endpoints k).symm, fun s => (h.services s).symm, fun i => (h.interfaces i).symm,
    fun i => (h.pins i).symm, fun k => (h.links k).symm, fun k => (h.externals k).symm⟩

theorem filed (h : r.SameContents r') (hr : r.Filed) : r'.Filed where
  own_id k e live := hr.own_id k e ((h.endpoints k).symm.trans live)
  services := (hr.services.of_filed? h.services).congr fun s k => by rw [h.endpoints]
  interfaces := (hr.interfaces.of_filed? h.interfaces).congr fun i k => by rw [h.endpoints]

/-- The endpoints determine the contents of the indices. -/
theorem of_filed (hr : r.Filed) (hr' : r'.Filed) (endpoints : ∀ k, r'.get? k = r.get? k)
    (pins : ∀ i, r'.pins.get? i = r.pins.get? i) (links : ∀ k, r'.links.get? k = r.links.get? k)
    (externals : ∀ k, r'.externals.get? k = r.externals.get? k) : r.SameContents r' where
  endpoints := endpoints
  services := hr.services.filed?_congr (hr'.services.congr fun s k => by rw [endpoints])
  interfaces := hr.interfaces.filed?_congr (hr'.interfaces.congr fun i k => by rw [endpoints])
  pins := pins
  links := links
  externals := externals

theorem names (h : r.SameContents r') (names : r'.Names ref e) : r.Names ref e :=
  ⟨(h.endpoints _).symm.trans names.live, names.accepts⟩

theorem offers (h : r.SameContents r') (offers : r'.Offers s e) : r.Offers s e := by
  cases offers with
  | own live service => exact .own ((h.endpoints _).symm.trans live) service
  | linked k vacant service link live =>
    exact .linked k ((h.endpoints _).symm.trans vacant) service ((h.links _).symm.trans link)
      ((h.endpoints _).symm.trans live)

theorem front_service (h : k ∈ r.byService.ids s) :
    r.SameContents { r with byService := r.byService.front s k } :=
  { refl r with services := Index.filed?_front h }

theorem front_link {j : EndpointId} (h : r.links.get? j = some k) :
    r.SameContents { r with links := r.links.front j k } :=
  { refl r with links := r.links.get?_front h }

end SameContents

/-! ### What a reference may resolve to -/

/-- Either the endpoint is named, or nobody is and it is an endpoint of the service that spells the
address; one that only a link leads to counts where no endpoint of the service itself does. -/
inductive Eligible (r : Registry) (ref : Reference) (c : Endpoint) : Prop
  | named (names : r.Names ref c)
  | own (unnamed : ∀ e, ¬ r.Names ref e) (live : r.get? c.id = some c)
      (service : c.service = ref.service) (spells : c.Spells ref.address)
  | linked (unnamed : ∀ e, ¬ r.Names ref e)
      (alone : ∀ e, r.get? e.id = some e → e.service = ref.service → ¬ e.Spells ref.address)
      (offers : r.Offers ref.service c) (spells : c.Spells ref.address)

theorem SameContents.eligible (h : r.SameContents r') (eligible : r'.Eligible ref c) :
    r.Eligible ref c := by
  have unnamed (un : ∀ e, ¬ r'.Names ref e) : ∀ e, ¬ r.Names ref e := fun e names =>
    un e (h.symm.names names)
  cases eligible with
  | named names => exact .named (h.names names)
  | own un live service spells =>
    exact .own (unnamed un) ((h.endpoints _).symm.trans live) service spells
  | linked un alone offers spells =>
    exact .linked (unnamed un) (fun e live => alone e ((h.endpoints _).trans live))
      (h.offers offers) spells

theorem prefix_addMissing (ks l : List EndpointId) : ks <+: addMissing ks l := by
  induction l generalizing ks with
  | nil => exact List.prefix_rfl
  | cons k l ih =>
    rw [addMissing]
    split
    · exact ih ks
    · exact (List.prefix_append ks [k]).trans (ih _)

theorem find?_live_extend {ks ls : List EndpointId} {p : Endpoint → Bool} (h : ks <+: ls)
    (found : (r.live ks).find? p = some c) : (r.live ls).find? p = some c := by
  obtain ⟨rest, rfl⟩ := h
  unfold live at *
  rw [List.filterMap_append, List.find?_append, found]
  rfl

theorem find?_live_of_snoc {ks ls : List EndpointId} {p : Endpoint → Bool}
    (h : ks ++ [c.id] <+: ls) (live : r.get? c.id = some c)
    (before : ∀ e ∈ r.live ks, ¬ p e = true) (here : p c = true) :
    (r.live ls).find? p = some c := by
  refine find?_live_extend h ?_
  have last : r.live [c.id] = [c] := List.filterMap_cons_some live
  have split : r.live (ks ++ [c.id]) = r.live ks ++ r.live [c.id] := List.filterMap_append
  rw [split, last, List.find?_append, List.find?_eq_none.2 before, List.find?_singleton,
    if_pos here]
  rfl

theorem Filed.mem_live_ids (h : r.Filed) :
    e ∈ r.live (r.byService.ids s) ↔ r.get? e.id = some e ∧ e.service = s := by
  rw [h.mem_live, h.services.mem_iff]
  constructor
  · rintro ⟨⟨a, held, service⟩, live⟩
    obtain rfl := Option.some.inj (held.symm.trans live)
    exact ⟨live, service⟩
  · rintro ⟨live, service⟩
    exact ⟨⟨e, live, service⟩, live⟩

theorem Filed.eligible_of_resolve (h : r.Filed) (found : r.resolve ref = some c) :
    r.Eligible ref c := by
  by_cases named : ∃ e, r.Names ref e
  · obtain ⟨e, names⟩ := named
    obtain rfl := Option.some.inj (names.resolve.symm.trans found)
    exact .named names
  have unnamed : ∀ e, ¬ r.Names ref e := fun e names => named ⟨e, names⟩
  obtain ⟨mem, spells⟩ := spells_of_resolve unnamed found
  have live := h.live_of_mem_lookupService mem
  by_cases service : c.service = ref.service
  · exact .own unnamed live service spells
  refine .linked unnamed (fun e held same spelled => ?_) (h.mem_lookupService.1 mem) spells
  -- one of the service itself would have been found first
  cases first : (r.live (r.byService.ids ref.service)).find? (·.spells ref.address) with
  | none =>
    exact List.find?_eq_none.1 first e (h.mem_live_ids.2 ⟨held, same⟩)
      (Endpoint.spells_iff.2 spelled)
  | some d =>
    have resolved : r.resolve ref = some d :=
      (resolve_of_unnamed unnamed).trans (find?_live_extend (prefix_addMissing _ _) first)
    obtain rfl := Option.some.inj (resolved.symm.trans found)
    exact service (h.mem_live_ids.1 (List.mem_of_find?_eq_some first)).2

theorem Filed.not_eligible_of_resolve (h : r.Filed) (absent : r.resolve ref = none) :
    ¬ r.Eligible ref c := by
  intro eligible
  cases eligible with
  | named names => exact nomatch names.resolve.symm.trans absent
  | own unnamed live service spells =>
    have mem := h.mem_lookupService.2 (.own live service)
    exact (resolve_eq_none_iff unnamed).1 absent c mem spells
  | linked unnamed _ offers spells =>
    exact (resolve_eq_none_iff unnamed).1 absent c (h.mem_lookupService.2 offers) spells

/-! ### Every eligible endpoint comes first in some order -/

theorem Filed.first_of_service (h : r.Filed) (unnamed : ∀ e, ¬ r.Names ref e)
    (live : r.get? c.id = some c) (service : c.service = ref.service)
    (spells : c.Spells ref.address) : ∃ r', r.SameContents r' ∧ r'.resolve ref = some c := by
  have mem : c.id ∈ r.byService.ids ref.service := (h.services.mem_iff _ _).2 ⟨c, live, service⟩
  have same := SameContents.front_service mem
  refine ⟨_, same, ?_⟩
  rw [resolve_of_unnamed fun e names => unnamed e (same.names names)]
  have prefixed : [] ++ [c.id] <+: (r.byService.front ref.service c.id).ids ref.service := by
    rw [Index.ids_front]
    exact List.prefix_append [c.id] _
  refine find?_live_of_snoc (prefixed.trans (prefix_addMissing _ _)) ((same.endpoints _).trans live)
    (fun e mem => nomatch mem) (Endpoint.spells_iff.2 spells)

theorem linkedIds_front {j : EndpointId} (vacant : r.get? j = none) (service : j.service = s) :
    ∃ rest, linkedIds { r with links := r.links.front j k } s = k :: rest := by
  have kept : (decide (j.service = s) && !r.endpoints.contains j) = true := by
    unfold get? at vacant
    simp [Table.contains, vacant, service]
  have first := List.filter_cons_of_pos (a := (j, k)) (l := (r.links.erase j).entries)
    (p := fun l => decide (l.1.service = s) && !r.endpoints.contains l.1) kept
  exact ⟨_, congrArg (List.map Prod.snd) first⟩

theorem Filed.first_of_link (h : r.Filed) {j : EndpointId} (unnamed : ∀ e, ¬ r.Names ref e)
    (alone : ∀ e, r.get? e.id = some e → e.service = ref.service → ¬ e.Spells ref.address)
    (vacant : r.get? j = none) (service : j.service = ref.service)
    (link : r.links.get? j = some c.id) (live : r.get? c.id = some c)
    (spells : c.Spells ref.address) : ∃ r', r.SameContents r' ∧ r'.resolve ref = some c := by
  have same := SameContents.front_link link
  refine ⟨_, same, ?_⟩
  rw [resolve_of_unnamed fun e names => unnamed e (same.names names)]
  -- it is not listed among the ids of the service, so it is the first that is added to them
  have apart : c.id ∉ r.byService.ids ref.service := by
    intro mem
    obtain ⟨e, held, served⟩ := (h.services.mem_iff _ _).1 mem
    obtain rfl := Option.some.inj (held.symm.trans live)
    exact alone e live served spells
  have prefixed : r.byService.ids ref.service ++ [c.id] <+:
      addMissing (r.byService.ids ref.service)
        (linkedIds { r with links := r.links.front j c.id } ref.service) := by
    obtain ⟨rest, linked⟩ := linkedIds_front (k := c.id) vacant service
    rw [linked, addMissing, if_neg apart]
    exact prefix_addMissing _ rest
  refine find?_live_of_snoc prefixed live (fun e mem spelled => ?_) (Endpoint.spells_iff.2 spells)
  obtain ⟨held, served⟩ := h.mem_live_ids.1 mem
  exact alone e held served (Endpoint.spells_iff.1 spelled)

theorem Filed.exists_resolve_of_eligible (h : r.Filed) (eligible : r.Eligible ref c) :
    ∃ r', r.SameContents r' ∧ r'.resolve ref = some c := by
  cases eligible with
  | named names => exact ⟨r, .refl r, names.resolve⟩
  | own unnamed live service spells => exact h.first_of_service unnamed live service spells
  | linked unnamed alone offers spells =>
    cases offers with
    | own live service => exact absurd spells (alone c live service)
    | linked j vacant service link live =>
      exact h.first_of_link unnamed alone vacant service link live spells

/-! ### What the contents determine -/

/-- What a reference resolves to in all registries with the contents of `r`. -/
structure Reordered (r : Registry) (ref : Reference) : Prop where
  possible : ∀ c, (∃ r', r.SameContents r' ∧ r'.resolve ref = some c) ↔ r.Eligible ref c
  absent : ∀ r', r.SameContents r' → (r'.resolve ref = none ↔ ∀ c, ¬ r.Eligible ref c)
  determined : (∀ r', r.SameContents r' → r'.resolve ref = r.resolve ref) ↔
    ∀ c d, r.Eligible ref c → r.Eligible ref d → c = d

theorem Filed.resolve_eq_none_iff_of_sameContents (h : r.Filed) (same : r.SameContents r') :
    r'.resolve ref = none ↔ ∀ c, ¬ r.Eligible ref c := by
  constructor
  · intro absent c eligible
    exact (same.filed h).not_eligible_of_resolve absent (same.symm.eligible eligible)
  · intro nobody
    cases found : r'.resolve ref with
    | none => rfl
    | some c => exact absurd (same.eligible ((same.filed h).eligible_of_resolve found)) (nobody c)

theorem Filed.resolve_congr_iff (h : r.Filed) :
    (∀ r', r.SameContents r' → r'.resolve ref = r.resolve ref) ↔
      ∀ c d, r.Eligible ref c → r.Eligible ref d → c = d := by
  constructor
  · intro fixed c d hc hd
    obtain ⟨r₁, same₁, first⟩ := h.exists_resolve_of_eligible hc
    obtain ⟨r₂, same₂, second⟩ := h.exists_resolve_of_eligible hd
    exact Option.some.inj ((first.symm.trans (fixed r₁ same₁)).trans
      ((fixed r₂ same₂).symm.trans second))
  · intro unique r' same
    cases found : r.resolve ref with
    | none =>
      exact (h.resolve_eq_none_iff_of_sameContents same).2
        ((h.resolve_eq_none_iff_of_sameContents (.refl r)).1 found)
    | some c =>
      cases found' : r'.resolve ref with
      | none =>
        exact absurd (h.eligible_of_resolve found)
          ((h.resolve_eq_none_iff_of_sameContents same).1 found' c)
      | some d =>
        exact congrArg some (unique d c (same.eligible ((same.filed h).eligible_of_resolve found'))
          (h.eligible_of_resolve found))

theorem Reachable.reordered (h : r.Reachable) (ref : Reference) : r.Reordered ref where
  possible _ :=
    ⟨fun ⟨_, same, found⟩ => same.eligible ((same.filed h.filed).eligible_of_resolve found),
      h.filed.exists_resolve_of_eligible⟩
  absent _ := h.filed.resolve_eq_none_iff_of_sameContents
  determined := h.filed.resolve_congr_iff

/-- Each of the two endpoints that spell the address is found in some order. -/
theorem reordered_alike : (alikeCalls.foldl after .empty).Reachable ∧
    (∃ r', (alikeCalls.foldl after .empty).SameContents r' ∧ r'.resolve spelling = alike[0]?) ∧
    ∃ r', (alikeCalls.foldl after .empty).SameContents r' ∧ r'.resolve spelling = alike[1]? := by
  have reachable : (alikeCalls.foldl after .empty).Reachable := ⟨alikeCalls, rfl⟩
  have unnamed : ∀ e, ¬ (alikeCalls.foldl after .empty).Names spelling e := by
    intro e names
    cases names.live
  have live : ∀ e ∈ alike, (alikeCalls.foldl after .empty).get? e.id = some e := by decide
  have service : ∀ e ∈ alike, e.service = spelling.service := by decide
  have spells : ∀ e ∈ alike, e.spells spelling.address = true := by decide
  have found (c : Endpoint) (mem : c ∈ alike) :=
    ((Reachable.reordered reachable spelling).possible c).2
      (.own unnamed (live c mem) (service c mem) (Endpoint.spells_iff.1 (spells c mem)))
  exact ⟨reachable, found _ List.mem_cons_self,
    found _ (List.mem_cons_of_mem _ List.mem_cons_self)⟩

/-- Published in the one order or the other, the two endpoints make the same contents, and the
reference resolves to different endpoints. -/
theorem not_determined_alike : ∃ r r' : Registry, r.Reachable ∧ r'.Reachable ∧ r.SameContents r' ∧
    r.resolve spelling ≠ r'.resolve spelling := by
  have filed (l : List Endpoint) : (publishing l).Filed := (reachable_publishing l).filed
  have apart : ∀ c ∈ alike.head?, ∀ d ∈ alike.getLast?, d.id ≠ c.id := by decide
  have same : (publishing alike).SameContents (publishing alike.reverse) :=
    .of_filed (filed _) (filed _)
      (Table.get?_insert_comm .empty (apart _ rfl _ rfl) _ _) (fun _ => rfl) (fun _ => rfl)
      fun _ => rfl
  exact ⟨_, _, reachable_publishing alike, reachable_publishing alike.reverse, same, by decide⟩

end Registry

end ServiceBus
