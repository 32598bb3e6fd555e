import ServiceBus.Json.Decode
import ServiceBus.Proofs.Json.Read

/-!
# The fields of written records

A record is written as an object and handed on as it is, or as a value with all members in order
(`Json.Style`). Either way an object says the same of every field (`Raw.record?_styled`).
`dec.Reads v a`: the decoder gets `a` back from the value `v`, unless that nests deeper than
allowed; a record is read so if each of its fields is (`Decoder.Reads.record`). Another value for one
member is another value for this field alone (`Raw.fieldsOfMembers?_revise`).
-/

namespace ServiceBus

/-! ### Members -/

namespace Json
variable {name : String} {v : Json} {ms done : List (String × Json)} {d : Nat}

theorem member?_eq_none (h : name ∉ ms.map Prod.fst) : member? name ms = none := by
  induction ms with
  | nil => rfl
  | cons m ms ih =>
    simp only [List.map_cons, List.mem_cons, not_or] at h
    simp [member?, Ne.symm h.1, ih h.2]

theorem member?_canonicalMembers (nodup : (ms.map Prod.fst).Nodup) :
    member? name (canonicalMembers done ms) =
      ((member? name ms).map canonical).or (member? name done) := by
  induction ms generalizing done with
  | nil => rfl
  | cons m ms ih =>
    obtain ⟨k, x⟩ := m
    obtain ⟨hk, nodup⟩ := List.nodup_cons.1 nodup
    rw [canonicalMembers, ih nodup]
    by_cases e : k = name
    · subst e
      simp [member?, member?_eq_none hk]
    · rw [member?_insert_of_ne (Ne.symm e), member?, if_neg e]

theorem perm_insert (h : name ∉ ms.map Prod.fst) : (insert name v ms).Perm ((name, v) :: ms) := by
  induction ms with
  | nil => exact .refl _
  | cons m ms ih =>
    obtain ⟨k, x⟩ := m
    simp only [List.map_cons, List.mem_cons, not_or] at h
    rw [insert, if_neg h.1]
    split
    · exact .refl _
    · exact ((ih h.2).cons (k, x)).trans (.swap (name, v) (k, x) ms)

/-- Where no name is repeated, bringing members in order only rearranges them. -/
theorem perm_canonicalMembers (done ms : List (String × Json))
    (nodup : ((done ++ ms).map Prod.fst).Nodup) :
    (canonicalMembers done ms).Perm (done ++ ms.map fun m => (m.1, m.2.canonical)) := by
  induction ms generalizing done with
  | nil => simp [canonicalMembers]
  | cons m ms ih =>
    obtain ⟨k, x⟩ := m
    have front : ((done ++ (k, x) :: ms).map Prod.fst).Perm (k :: (done ++ ms).map Prod.fst) :=
      List.perm_middle.map Prod.fst
    obtain ⟨hk, rest⟩ := List.nodup_cons.1 (front.nodup_iff.1 nodup)
    have fresh : k ∉ done.map Prod.fst := fun h => hk (List.map_append ▸ List.mem_append_left _ h)
    have entered := perm_insert (v := x.canonical) fresh
    have inserted : ((insert k x.canonical done ++ ms).map Prod.fst).Nodup :=
      ((entered.append_right ms).map Prod.fst).nodup_iff.2 (List.nodup_cons.2 ⟨hk, rest⟩)
    rw [canonicalMembers]
    refine (ih _ inserted).trans ((entered.append_right _).trans ?_)
    exact List.perm_middle.symm

theorem depthMembers_le_iff : depthMembers ms ≤ d ↔ ∀ m ∈ ms, m.2.depth ≤ d := by
  induction ms with
  | nil => simp [depthMembers]
  | cons m ms ih => rw [depthMembers, Nat.max_le, ih, List.forall_mem_cons]

/-! ### Two ways to hand on a value -/

/-- As it is written, or with all members in order. -/
inductive Style where
  | written
  | ordered

def styled : Style → Json → Json
  | .written, v => v
  | .ordered, v => v.canonical

variable {st : Style}

theorem styled_eq (st : Style) (h : v.canonical = v) : v.styled st = v := by
  cases st with
  | written => rfl
  | ordered => exact h

/-- The members of a record are the same in either style, each in that style. -/
theorem styled_object (st : Style) (nodup : (ms.map Prod.fst).Nodup) :
    ∃ ms', (object ms).styled st = object ms' ∧
      ms'.Perm (ms.map fun m => (m.1, m.2.styled st)) ∧
      ∀ n, member? n ms' = (member? n ms).map (styled st) := by
  cases st with
  | written => exact ⟨ms, rfl, by simp [styled], fun n => by cases member? n ms <;> rfl⟩
  | ordered =>
    refine ⟨_, rfl, perm_canonicalMembers [] ms nodup, fun n => ?_⟩
    exact (member?_canonicalMembers nodup).trans Option.or_none

/-- What an object with these members says of a name, in a style. -/
def stated (st : Style) (ms : List (String × Json)) (n : String) : Option Raw :=
  (member? n ms).map fun v => (v.styled st).raw

theorem depth_styled_object (nodup : (ms.map Prod.fst).Nodup) :
    ((object ms).styled st).depth ≤ d + 1 ↔ ∀ m ∈ ms, (m.2.styled st).depth ≤ d := by
  obtain ⟨ms', e, perm, -⟩ := styled_object st nodup
  rw [e, depth, Nat.add_le_add_iff_right, depthMembers_le_iff]
  exact (forall_congr' fun m => by rw [perm.mem_iff]).trans List.forall_mem_map

end Json

/-! ### Fields -/

/-- The fields of a record of which an object says so much. -/
def Fields.told (names : List String) (depth : Nat) (said : String → Option Raw) : Fields :=
  ⟨depth, fun n =>
    if n ∈ names then
      match said n with
      | some r => .given r
      | none => .absent
    else .absent⟩

namespace Raw
variable {rs : List (String × Raw)} {ms : List (String × Json)} {st : Json.Style}

theorem named?_rawMembers (ms : List (String × Json)) :
    named? (Json.rawMembers ms) = some (ms.map fun m => (m.1, m.2.raw)) := by
  induction ms with
  | nil => rfl
  | cons m ms ih => simp [Json.rawMembers, named?, ih]

theorem lookup_map_raw (ms : List (String × Json)) (n : String) :
    (ms.map fun m => (m.1, m.2.raw)).lookup n = (Json.member? n ms).map Json.raw := by
  induction ms with
  | nil => rfl
  | cons m ms ih =>
    obtain ⟨k, x⟩ := m
    rw [List.map_cons, List.lookup_cons, ih, Json.member?]
    by_cases e : k = n
    · simp [e]
    · simp [e, beq_eq_false_iff_ne.2 (Ne.symm e)]

/-- Where no name is repeated an object says of each name at most one thing. -/
theorem slot?_of_nodup (nodup : (rs.map Prod.fst).Nodup) (n : String) :
    slot? rs n = some (match rs.lookup n with
      | some r => .given r
      | none => .absent) := by
  induction rs with
  | nil => rfl
  | cons m rs ih =>
    obtain ⟨k, r⟩ := m
    obtain ⟨hk, nodup⟩ := List.nodup_cons.1 nodup
    by_cases e : k = n
    · subst e
      have alone : (rs.filter fun m => m.1 = k) = [] := List.filter_eq_nil_iff.2 fun m hm e =>
        hk (List.mem_map.2 ⟨m, hm, of_decide_eq_true e⟩)
      simp [slot?, alone]
    · have rest := ih nodup
      unfold slot? at rest ⊢
      simpa [e, List.lookup_cons, beq_eq_false_iff_ne.2 (Ne.symm e)] using rest

theorem mapM_slot? (names : List String) (rs : List (String × Raw)) :
    (names.mapM fun n => (slot? rs n).map fun s => (n, s)) =
      if ∀ n ∈ names, (slot? rs n).isSome then
        some (names.map fun n => (n, (slot? rs n).getD .absent)) else none := by
  induction names with
  | nil => simp
  | cons k names ih =>
    rw [List.mapM_cons, ih]
    cases hk : slot? rs k with
    | none => simp [hk]
    | some s =>
      by_cases h : ∀ n ∈ names, (slot? rs n).isSome
      · rw [if_pos h, if_pos (List.forall_mem_cons.2 ⟨by simp [hk], h⟩)]
        simp [hk]
      · rw [if_neg h, if_neg fun all => h (List.forall_mem_cons.1 all).2]
        rfl

theorem lookup_map_slot (names : List String) (slot : String → Slot) (n : String) :
    (names.map fun k => (k, slot k)).lookup n = if n ∈ names then some (slot n) else none := by
  induction names with
  | nil => rfl
  | cons k names ih =>
    rw [List.map_cons, List.lookup_cons, ih]
    by_cases e : n = k
    · simp [e]
    · simp [e, beq_eq_false_iff_ne.2 e]

/-- Fields are read if none of their names is repeated. -/
theorem fieldsOfMembers?_eq (names : List String) (d : Nat) (rs : List (String × Raw)) :
    fieldsOfMembers? names d rs = if ∀ n ∈ names, (slot? rs n).isSome then
      some ⟨d, fun n => if n ∈ names then (slot? rs n).getD .absent else .absent⟩ else none := by
  rw [fieldsOfMembers?, mapM_slot?]
  split
  · simp only [Option.bind_eq_bind, Option.bind_some, lookup_map_slot]
    congr 2
    funext n
    split <;> rfl
  · rfl

theorem fieldsOfMembers?_of_nodup (names : List String) (d : Nat)
    (nodup : (rs.map Prod.fst).Nodup) :
    fieldsOfMembers? names d rs = some (.told names d fun n => rs.lookup n) := by
  rw [fieldsOfMembers?_eq, if_pos fun n _ => by rw [slot?_of_nodup nodup]; rfl]
  simp only [slot?_of_nodup nodup, Option.getD_some]
  rfl

/-- An object says the same of every field in either style. -/
theorem record?_styled (names : List String) (d : Nat) (nodup : (ms.map Prod.fst).Nodup) :
    record? names (d + 1) ((Json.object ms).styled st).raw =
      some (.told names d (Json.stated st ms)) := by
  obtain ⟨ms', e, perm, member⟩ := Json.styled_object st nodup
  have nodup' : ((ms'.map fun m => (m.1, m.2.raw)).map Prod.fst).Nodup := by
    have fst := perm.map Prod.fst
    simp only [List.map_map, Function.comp_def] at fst ⊢
    exact fst.nodup_iff.2 nodup
  rw [e, Json.raw, record?, named?_rawMembers, Option.bind_some,
    fieldsOfMembers?_of_nodup _ _ nodup']
  simp only [lookup_map_raw, member, Option.map_map]
  rfl

end Raw

namespace Fields
variable {α : Type} {names : List String} {d : Nat} {said : String → Option Raw} {n : String}

theorem required_told (hn : n ∈ names) (dec : Decoder α) :
    (told names d said).required n dec = (said n).bind (dec d) := by
  simp only [required, told, if_pos hn]
  cases said n <;> rfl

theorem optional_told (hn : n ∈ names) (dec : Decoder α) :
    (told names d said).optional n dec = match said n with
      | some .null => some none
      | some r => (dec d r).map some
      | none => some none := by
  simp only [optional, told, if_pos hn]
  cases said n with
  | none => rfl
  | some r => cases r <;> rfl

theorem orElse_told (hn : n ∈ names) (dec : Decoder α) (a : α) :
    (told names d said).orElse n dec a = match said n with
      | some r => dec d r
      | none => some a := by
  simp only [orElse, told, if_pos hn]
  cases said n <;> rfl

end Fields

/-! ### One field revised -/

/-- The fields with something else given for one of them. -/
def Fields.revise (f : Fields) (n : String) (r : Raw) : Fields :=
  ⟨f.depth, fun m => if m = n then .given r else f.slot m⟩

namespace Raw
variable {names : List String} {n k : String} {r : Raw} {before after : List (String × Raw)}

theorem slot?_append_of_ne (h : k ≠ n) :
    slot? (before ++ (n, r) :: after) k = slot? (before ++ after) k := by
  simp [slot?, Ne.symm h]

theorem slot?_append_self (n : String) (before after : List (String × Raw)) :
    (∀ r, slot? (before ++ (n, r) :: after) n = some (.given r)) ∨
      ∀ r, slot? (before ++ (n, r) :: after) n = none := by
  unfold slot?
  simp only [List.filter_append, List.filter_cons, decide_true, if_true]
  cases before.filter fun m => m.1 = n with
  | cons m l => cases l <;> exact .inr fun r => rfl
  | nil =>
    cases after.filter fun m => m.1 = n with
    | nil => exact .inl fun r => rfl
    | cons m l => exact .inr fun r => rfl

/-- Something else given for one name changes no other field. -/
theorem fieldsOfMembers?_revise (names : List String) (hn : n ∈ names) (d : Nat)
    (before after : List (String × Raw)) (r r' : Raw) :
    fieldsOfMembers? names d (before ++ (n, r) :: after) =
      (fieldsOfMembers? names d (before ++ (n, r') :: after)).map (·.revise n r) := by
  have other {k : String} (h : k ≠ n) : slot? (before ++ (n, r) :: after) k =
      slot? (before ++ (n, r') :: after) k := by
    rw [slot?_append_of_ne h, slot?_append_of_ne h]
  rw [fieldsOfMembers?_eq, fieldsOfMembers?_eq]
  rcases slot?_append_self n before after with given | repeated
  · have same (k : String) : (slot? (before ++ (n, r) :: after) k).isSome =
        (slot? (before ++ (n, r') :: after) k).isSome := by
      by_cases h : k = n
      · rw [h, given, given]
        rfl
      · rw [other h]
    simp only [same]
    split
    · refine congrArg some ?_
      unfold Fields.revise
      congr 1
      funext k
      by_cases h : k = n
      · rw [if_pos h, h, if_pos hn, given]
        rfl
      · rw [if_neg h, other h]
    · rfl
  · have refused (r : Raw) : ¬ ∀ k ∈ names, (slot? (before ++ (n, r) :: after) k).isSome := by
      intro once
      have found := once n hn
      rw [repeated] at found
      cases found
    rw [if_neg (refused r), if_neg (refused r')]
    rfl

theorem named?_append (k : Option String) (r : Raw) (before after : List (Option String × Raw)) :
    named? (before ++ (k, r) :: after) = (named? before).bind fun b => k.bind fun n =>
      (named? after).map fun a => b ++ (n, r) :: a := by
  induction before with
  | nil =>
    cases k with
    | none => rfl
    | some n => cases h : named? after <;> simp [named?, h]
  | cons m before ih =>
    obtain ⟨j, x⟩ := m
    rw [List.cons_append, named?, named?, ih]
    cases j with
    | none => rfl
    | some j =>
      cases named? before with
      | none => rfl
      | some b => cases k <;> cases named? after <;> rfl

end Raw

/-! ### Reading back -/

namespace Decoder
open Json
variable {α β : Type} {dec : Decoder α} {a : α} {v : Json} {st : Style} {names : List String}
  {n : String} {d : Nat} {ms : List (String × Json)}

/-- From the value the decoder gets `a`, unless the value nests deeper than is allowed. -/
def Reads (dec : Decoder α) (v : Json) (a : α) : Prop :=
  ∀ d, dec d v.raw = if v.depth ≤ d then some a else none

theorem reads_text (st : Style) (s : String) : text.Reads ((Json.text s).styled st) s := by
  cases st <;> exact fun d => (if_pos (Nat.zero_le d)).symm

theorem reads_bool (st : Style) (b : Bool) : bool.Reads ((Json.bool b).styled st) b := by
  cases st <;> exact fun d => (if_pos (Nat.zero_le d)).symm

theorem reads_nat (st : Style) {bound i : Nat} (h : i ≤ bound) :
    (nat bound).Reads ((Json.nat i).styled st) i := by
  have read (d : Nat) : nat bound d (Json.nat i).raw = some i := by
    have within : (0 : Int) ≤ i ∧ (i : Int) ≤ bound := by omega
    simp [Json.nat, Json.raw, nat, within]
  cases st <;> exact fun d => (read d).trans (if_pos (Nat.zero_le d)).symm

/-- A name is read as what it stands for. -/
theorem reads_choice (st : Style) {table : List (String × α)} {s : String}
    (h : table.lookup s = some a) : (choice table).Reads ((Json.text s).styled st) a := by
  cases st <;> exact fun d => h.trans (if_pos (Nat.zero_le d)).symm

theorem reads_any (st : Style) (ordered : v.canonical = v) : any.Reads (v.styled st) v := by
  rw [styled_eq st ordered]
  intro d
  rw [any, value?_raw, ordered]

theorem reads_members (st : Style) (ordered : (object ms).canonical = object ms) :
    members.Reads ((object ms).styled st) ms := by
  intro d
  have read : Raw.value? d ((object ms).styled st).raw = _ := reads_any st ordered d
  rw [members, read]
  by_cases h : ((object ms).styled st).depth ≤ d
  · rw [if_pos h, if_pos h]
  · rw [if_neg h, if_neg h]

/-! ### Records -/

theorem required_of_reads {x : Json} (hn : n ∈ names) (hx : member? n ms = some x)
    (h : dec.Reads (x.styled st) a) :
    (Fields.told names d (stated st ms)).required n dec =
      if (x.styled st).depth ≤ d then some a else none := by
  rw [Fields.required_told hn, stated, hx]
  exact h d

theorem orElse_of_reads {x : Json} (hn : n ∈ names) (hx : member? n ms = some x)
    (h : dec.Reads (x.styled st) a) (b : α) :
    (Fields.told names d (stated st ms)).orElse n dec b =
      if (x.styled st).depth ≤ d then some a else none := by
  rw [Fields.orElse_told hn, stated, hx]
  exact h d

theorem orElse_of_missing (hn : n ∈ names) (hx : member? n ms = none) (b : α) :
    (Fields.told names d (stated st ms)).orElse n dec b = some b := by
  rw [Fields.orElse_told hn, stated, hx]
  rfl

/-- What is not set stands as `null`, which is no value of the type itself. -/
theorem optional_of_reads {f : α → Json} {o : Option α} (hn : n ∈ names)
    (hx : member? n ms = some (ofOption f o)) (hnull : dec 0 .null = none)
    (h : ∀ a, o = some a → dec.Reads ((f a).styled st) a) :
    (Fields.told names d (stated st ms)).optional n dec =
      if ((ofOption f o).styled st).depth ≤ d then some o else none := by
  rw [Fields.optional_told hn, stated, hx]
  cases o with
  | none => cases st <;> exact (if_pos (Nat.zero_le d)).symm
  | some a =>
    have read := h a rfl
    show (match some ((f a).styled st).raw with
      | some .null => some none
      | some r => (dec d r).map some
      | none => some none) = if ((f a).styled st).depth ≤ d then _ else _
    generalize (f a).styled st = v at read ⊢
    cases v with
    | null => exact absurd (hnull.symm.trans (read 0)) (by simp [depth])
    | _ =>
      refine (congrArg (Option.map some) (read d)).trans ?_
      split <;> rfl

/-- One field after another is read if all of them can be. -/
theorem bind_of_reads {p q : Prop} [Decidable p] [Decidable q] {o : Option α} {k : α → Option β}
    {b : β} (ho : o = if p then some a else none) (hk : k a = if q then some b else none) :
    o.bind k = if p ∧ q then some b else none := by
  rw [ho]
  by_cases hp : p
  · simp [hp, hk]
  · simp [hp]

/-- A record is read back if its fields are. -/
theorem Reads.record (names : List String) {k : Fields → Option α} (nodup : (ms.map Prod.fst).Nodup)
    (hdec : ∀ d r, dec d r = (r.record? names d).bind k)
    (fields : ∀ d, k (.told names d (stated st ms)) =
      if ∀ m ∈ ms, (m.2.styled st).depth ≤ d then some a else none) :
    dec.Reads ((object ms).styled st) a := by
  intro d
  rw [hdec]
  cases d with
  | zero =>
    obtain ⟨ms', e, -⟩ := styled_object st nodup
    rw [e]
    rfl
  | succ d =>
    rw [Raw.record?_styled names d nodup, Option.bind_some, fields]
    simp only [depth_styled_object nodup]

end Decoder

end ServiceBus
