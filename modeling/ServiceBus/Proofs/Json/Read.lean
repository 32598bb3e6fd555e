import ServiceBus.Json.Parser
import ServiceBus.Proofs.Json.Tokens

/-!
# Reading what was written

The tokens of a value are read as it wherever a value is expected (`Reader.read_lift`), so a written
value can stand inside of others. A value without fractions is read back as what it says
(`parse?_render`), and that is wanted as it stands as long as it does not nest too deep
(`value?_raw`).
-/

namespace ServiceBus.Json.Reader

/-! ### Values inside of others -/

/-- The reader with more arrays and objects open around what it reads; when that is over, the
innermost of them gets the value. -/
def lift (stack : List Frame) (s : Reader) : Option Reader :=
  match s.expect with
  | .finished r => complete stack r
  | x => some ⟨s.stack ++ stack, x⟩

variable {s s' : Reader} {t : Token} {inner : List Frame} {r : Raw}

theorem complete_lift (stack : List Frame) (h : complete inner r = some s') :
    complete (inner ++ stack) r = lift stack s' := by
  cases inner with
  | nil => cases h; rfl
  | cons f inner => cases f <;> cases h <;> rfl

theorem value_lift (stack : List Frame) (h : value inner t = some s') :
    value (inner ++ stack) t = lift stack s' := by
  cases t with
  | scalar r => exact complete_lift stack h
  | openArray | openObject => cases h; rfl
  | _ => cases h

theorem name_lift (stack : List Frame) (h : name inner t = some s') :
    name (inner ++ stack) t = lift stack s' := by
  unfold name at h
  split at h
  · cases h; rfl
  · cases h

theorem close_lift (stack : List Frame) (h : close inner t = some s') :
    close (inner ++ stack) t = lift stack s' := by
  unfold close at h
  split at h
  · exact complete_lift stack h
  · exact complete_lift stack h
  · cases h

theorem step_firstItem (stack : List Frame) (h : t ≠ .closeArray) :
    step ⟨stack, .firstItem⟩ t = value stack t := by
  cases t with
  | closeArray => exact absurd rfl h
  | _ => rfl

theorem step_firstName (stack : List Frame) (h : t ≠ .closeObject) :
    step ⟨stack, .firstName⟩ t = name stack t := by
  cases t with
  | closeObject => exact absurd rfl h
  | _ => rfl

theorem step_lift (stack : List Frame) (h : s.step t = some s') :
    step ⟨s.stack ++ stack, s.expect⟩ t = lift stack s' := by
  obtain ⟨inner, x⟩ := s
  cases x with
  | value => exact value_lift stack h
  | firstItem =>
    by_cases ht : t = .closeArray
    · subst ht
      exact close_lift stack h
    · rw [step_firstItem _ ht] at h ⊢
      exact value_lift stack h
  | firstName =>
    by_cases ht : t = .closeObject
    · subst ht
      exact close_lift stack h
    · rw [step_firstName _ ht] at h ⊢
      exact name_lift stack h
  | name => exact name_lift stack h
  | colon =>
    cases t with
    | colon => cases h; rfl
    | _ => cases h
  | after =>
    cases t with
    | comma =>
      cases inner with
      | nil => cases h
      | cons f inner =>
        cases f with
        | array done | object done => cases h; rfl
        | member done k => cases h
    | _ => exact close_lift stack h
  | finished r => cases h

theorem read_of_finished (h : s.expect = .finished r) {ts : List Token}
    (hs : ts.foldlM step s = some s') : ts = [] := by
  obtain ⟨stack, x⟩ := s
  cases h
  cases ts with
  | nil => rfl
  | cons t ts => cases hs

/-- The tokens of a value are read as it wherever a value is expected. -/
theorem read_lift (stack : List Frame) {ts : List Token} (hs : ∀ r, s.expect ≠ .finished r)
    (h : ts.foldlM step s = some s') (hr : s'.expect = .finished r) :
    ts.foldlM step ⟨s.stack ++ stack, s.expect⟩ = complete stack r := by
  induction ts generalizing s with
  | nil => cases h; exact absurd hr (hs r)
  | cons t ts ih =>
    obtain ⟨m, hm, hts⟩ := Option.bind_eq_some_iff.1 h
    rw [List.foldlM_cons, step_lift stack hm, lift]
    by_cases hf : ∃ r', m.expect = .finished r'
    · obtain ⟨r', hf⟩ := hf
      obtain rfl := read_of_finished hf hts
      cases hts
      rw [hf] at hr
      cases hr
      rw [hf]
      exact bind_pure _
    · rw [not_exists] at hf
      have hl := ih hf hts
      split
      · next r' e => exact absurd e (hf r')
      · exact hl

end ServiceBus.Json.Reader

namespace ServiceBus.Raw
open Json

theorem parse?_eq_some_iff {d : Document} {r : Raw} :
    parse? d = some r ↔ ∃ ts s, Token.scan d = some ts ∧
      ts.foldlM Reader.step Reader.start = some s ∧ s.expect = .finished r := by
  unfold parse?
  constructor
  · intro h
    obtain ⟨ts, hts, h⟩ := Option.bind_eq_some_iff.1 h
    obtain ⟨s, hs, h⟩ := Option.bind_eq_some_iff.1 h
    refine ⟨ts, s, hts, hs, ?_⟩
    split at h
    · next e => cases h; exact e
    · cases h
  · rintro ⟨ts, s, hts, hs, e⟩
    simp only [hts, hs, e, Option.bind_eq_bind, Option.bind_some]

/-- The tokens of a document that is read as a value are read as it wherever a value is expected. -/
theorem read_of_parse? {d : Document} {r : Raw} (h : parse? d = some r) :
    ∃ ts, Token.scan d = some ts ∧
      ∀ stack, ts.foldlM Reader.step ⟨stack, .value⟩ = Reader.complete stack r := by
  obtain ⟨ts, s, hts, hs, e⟩ := parse?_eq_some_iff.1 h
  exact ⟨ts, hts, fun stack => Reader.read_lift stack (fun _ e => by cases e) hs e⟩

/-- A document whose tokens are read as a value wherever one is expected is read as it. -/
theorem parse?_of_read {d : Document} {ts : List Token} {r : Raw} (hts : Token.scan d = some ts)
    (h : ts.foldlM Reader.step ⟨[], .value⟩ = Reader.complete [] r) : parse? d = some r :=
  parse?_eq_some_iff.2 ⟨ts, _, hts, h, rfl⟩

end ServiceBus.Raw

namespace ServiceBus.Json
open Reader

theorem tokens_head (v : Json) : ∃ t ts, v.tokens = t :: ts ∧ t ≠ .closeArray := by
  cases v with
  | array | object | null | bool | number | text => exact ⟨_, _, rfl, by simp⟩

theorem itemTokens_head (x : Json) (xs : List Json) :
    ∃ t ts, itemTokens (x :: xs) = t :: ts ∧ t ≠ .closeArray := by
  obtain ⟨t, ts, e, ht⟩ := tokens_head x
  cases xs with
  | nil => exact ⟨t, ts, e, ht⟩
  | cons y xs => exact ⟨t, ts ++ .comma :: itemTokens (y :: xs), by rw [itemTokens, e]; rfl, ht⟩

theorem read_firstItem (stack : List Frame) (x : Json) (xs : List Json) :
    (itemTokens (x :: xs)).foldlM step ⟨stack, .firstItem⟩ =
      (itemTokens (x :: xs)).foldlM step ⟨stack, .value⟩ := by
  obtain ⟨t, ts, e, ht⟩ := itemTokens_head x xs
  rw [e, List.foldlM_cons, List.foldlM_cons, step_firstItem stack ht]
  rfl

theorem read_firstName (stack : List Frame) (m : String × Json) (ms : List (String × Json)) :
    (memberTokens (m :: ms)).foldlM step ⟨stack, .firstName⟩ =
      (memberTokens (m :: ms)).foldlM step ⟨stack, .name⟩ := by
  cases ms <;> rfl

mutual

theorem read_tokens : ∀ (v : Json) (stack : List Frame),
    v.tokens.foldlM step ⟨stack, .value⟩ = complete stack v.raw
  | .null, _ | .bool _, _ | .number _, _ | .text _, _ => bind_pure _
  | .array [], stack => bind_pure (complete stack (.array []))
  | .array (x :: xs), stack => by
    rw [tokens, List.foldlM_cons]
    show List.foldlM step ⟨.array [] :: stack, .firstItem⟩ _ = _
    rw [List.foldlM_append, read_firstItem, read_items (x :: xs) (List.cons_ne_nil x xs)]
    show complete stack (.array ((rawItems (x :: xs)).reverse ++ []).reverse) >>= pure = _
    rw [List.append_nil, List.reverse_reverse, bind_pure, raw]
  | .object [], stack => bind_pure (complete stack (.object []))
  | .object (m :: ms), stack => by
    rw [tokens, List.foldlM_cons]
    show List.foldlM step ⟨.object [] :: stack, .firstName⟩ _ = _
    rw [List.foldlM_append, read_firstName, read_members (m :: ms) (List.cons_ne_nil m ms)]
    show complete stack (.object ((rawMembers (m :: ms)).reverse ++ []).reverse) >>= pure = _
    rw [List.append_nil, List.reverse_reverse, bind_pure, raw]

theorem read_items : ∀ (xs : List Json) (_ : xs ≠ []) (done : List Raw) (stack : List Frame),
    (itemTokens xs).foldlM step ⟨.array done :: stack, .value⟩ =
      some ⟨.array ((rawItems xs).reverse ++ done) :: stack, .after⟩
  | [], h, _, _ => absurd rfl h
  | [x], _, done, stack => by
    rw [itemTokens, read_tokens x]
    rfl
  | x :: y :: xs, _, done, stack => by
    have hr : rawItems (x :: y :: xs) = x.raw :: rawItems (y :: xs) := rfl
    rw [itemTokens, List.foldlM_append, read_tokens x, hr, List.reverse_cons, List.append_assoc]
    exact read_items (y :: xs) (List.cons_ne_nil y xs) (x.raw :: done) stack

theorem read_members : ∀ (ms : List (String × Json)) (_ : ms ≠ [])
    (done : List (Option String × Raw)) (stack : List Frame),
    (memberTokens ms).foldlM step ⟨.object done :: stack, .name⟩ =
      some ⟨.object ((rawMembers ms).reverse ++ done) :: stack, .after⟩
  | [], h, _, _ => absurd rfl h
  | [(k, x)], _, done, stack => by
    show x.tokens.foldlM step ⟨.member done (some k) :: stack, .value⟩ = _
    rw [read_tokens x]
    rfl
  | (k, x) :: m :: ms, _, done, stack => by
    have hr : rawMembers ((k, x) :: m :: ms) = (some k, x.raw) :: rawMembers (m :: ms) := rfl
    show (x.tokens ++ .comma :: memberTokens (m :: ms)).foldlM step
      ⟨.member done (some k) :: stack, .value⟩ = _
    rw [List.foldlM_append, read_tokens x, hr, List.reverse_cons, List.append_assoc]
    exact read_members (m :: ms) (List.cons_ne_nil m ms) ((some k, x.raw) :: done) stack

end

/-- The written form of a value without fractions says that value. -/
theorem parse?_render {v : Json} (h : v.isWhole = true) :
    Raw.parse? (.ofString v.render) = some v.raw :=
  Raw.parse?_of_read (scan_render v h) (read_tokens v [])

mutual

/-- What a value says is wanted as it stands: the value in order, as long as it does not nest too
deep. -/
theorem value?_raw : ∀ (v : Json) (d : Nat),
    v.raw.value? d = if v.depth ≤ d then some v.canonical else none
  | .null, d | .bool _, d | .number _, d | .text _, d => (if_pos (Nat.zero_le d)).symm
  | .array xs, 0 => rfl
  | .array xs, d + 1 => by
    rw [raw, Raw.value?, items?_raw xs d, depth, canonical]
    by_cases h : depthItems xs ≤ d
    · rw [if_pos h, if_pos (Nat.succ_le_succ h)]
      rfl
    · rw [if_neg h, if_neg (by omega)]
      rfl
  | .object ms, 0 => rfl
  | .object ms, d + 1 => by
    rw [raw, Raw.value?, members?_raw ms d [], depth, canonical]
    by_cases h : depthMembers ms ≤ d
    · rw [if_pos h, if_pos (Nat.succ_le_succ h)]
      rfl
    · rw [if_neg h, if_neg (by omega)]
      rfl

theorem items?_raw : ∀ (xs : List Json) (d : Nat),
    Raw.items? d (rawItems xs) = if depthItems xs ≤ d then some (canonicalItems xs) else none
  | [], d => (if_pos (Nat.zero_le d)).symm
  | x :: xs, d => by
    rw [rawItems, Raw.items?, value?_raw x d, items?_raw xs d, depthItems, canonicalItems]
    by_cases hx : x.depth ≤ d
    · by_cases hs : depthItems xs ≤ d
      · rw [if_pos hx, if_pos hs, if_pos (Nat.max_le.2 ⟨hx, hs⟩)]
        rfl
      · rw [if_pos hx, if_neg hs, if_neg fun h => hs (Nat.max_le.1 h).2]
        rfl
    · rw [if_neg hx, if_neg fun h => hx (Nat.max_le.1 h).1]
      rfl

theorem members?_raw : ∀ (ms : List (String × Json)) (d : Nat) (done : List (String × Json)),
    Raw.members? d done (rawMembers ms) =
      if depthMembers ms ≤ d then some (canonicalMembers done ms) else none
  | [], d, done => (if_pos (Nat.zero_le d)).symm
  | (k, x) :: ms, d, done => by
    rw [rawMembers, Raw.members?, value?_raw x d, depthMembers]
    by_cases hx : x.depth ≤ d
    · rw [if_pos hx]
      show Raw.members? d (insert k x.canonical done) (rawMembers ms) = _
      rw [members?_raw ms d]
      by_cases hs : depthMembers ms ≤ d
      · rw [if_pos hs, if_pos (Nat.max_le.2 ⟨hx, hs⟩), canonicalMembers]
      · rw [if_neg hs, if_neg fun h => hs (Nat.max_le.1 h).2]
    · rw [if_neg hx, if_neg fun h => hx (Nat.max_le.1 h).1]
      rfl

end

end ServiceBus.Json
