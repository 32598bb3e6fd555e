import ServiceBus.Json.Token

/-!
# Scanning documents in parts

A document that scans gives the same tokens with another one after it, as long as the other does not
go on with a numeral at its end (`stops`): `scan_append`. So a written value can be scanned part by
part.
-/

namespace ServiceBus.Json.Token

variable {d e rest : Document} {ds : List Nat} {t : Token}

/-! ### Numerals -/

/-- Whether a numeral ends in front of the document. -/
def stops : Document → Bool
  | some c :: _ => (digit? (some c)).isNone && c ≠ '.' && c ≠ 'e' && c ≠ 'E'
  | _ => true

theorem ne_of_stops (h : stops e = true) {c : Char} (hc : stops [some c] = false)
    (more : Document) : e ≠ some c :: more := by
  rintro rfl
  exact Bool.noConfusion (hc.symm.trans h)

theorem append_ne {g : Glyph} (hd : ∀ more, d ≠ g :: more) (he : ∀ more, e ≠ g :: more)
    (more : Document) : d ++ e ≠ g :: more := by
  cases d with
  | nil => exact he more
  | cons g' d =>
    intro h
    obtain ⟨rfl, -⟩ := List.cons.inj h
    exact hd d rfl

theorem digits_of_stops (h : stops e = true) : digits e = ([], e) := by
  match e with
  | [] => rfl
  | none :: e => rfl
  | some c :: e =>
    simp only [stops, Bool.and_eq_true, Option.isNone_iff_eq_none] at h
    simp only [digits, h.1.1.1]

theorem digits_append (d : Document) (h : stops e = true) :
    digits (d ++ e) = ((digits d).1, (digits d).2 ++ e) := by
  induction d with
  | nil => exact digits_of_stops h
  | cons g d ih =>
    simp only [List.cons_append, digits]
    cases digit? g with
    | none => rfl
    | some n => simp only [ih]

theorem someDigits_append (hd : someDigits d = some (ds, rest)) (h : stops e = true) :
    someDigits (d ++ e) = some (ds, rest ++ e) := by
  unfold someDigits at hd ⊢
  rw [digits_append d h]
  generalize digits d = r at hd ⊢
  obtain ⟨_ | ⟨n, ns⟩, more⟩ := r
  · cases hd
  · cases hd
    rfl

theorem map_someDigits_append {α : Type} {f : List Nat → α} {a : α}
    (hd : (someDigits d).map (fun (ds, more) => (f ds, more)) = some (a, rest))
    (h : stops e = true) :
    (someDigits (d ++ e)).map (fun (ds, more) => (f ds, more)) = some (a, rest ++ e) := by
  obtain ⟨⟨ds, more⟩, hs, heq⟩ := Option.map_eq_some_iff.1 hd
  cases heq
  rw [someDigits_append hs h]
  rfl

theorem fraction?_of_ne (h : ∀ more, d ≠ some '.' :: more) : fraction? d = some (none, d) := by
  unfold fraction?
  split
  · next more => exact absurd rfl (h more)
  · rfl

theorem fraction?_append {f : Option (List Nat)} (hd : fraction? d = some (f, rest))
    (h : stops e = true) : fraction? (d ++ e) = some (f, rest ++ e) := by
  unfold fraction? at hd
  split at hd
  · next more => exact map_someDigits_append (f := some) hd h
  · next hne =>
    cases hd
    exact fraction?_of_ne (append_ne hne (ne_of_stops h (by decide)))

theorem exponentDigits?_append {x : Bool × List Nat} (hd : exponentDigits? d = some (x, rest))
    (h : stops e = true) : exponentDigits? (d ++ e) = some (x, rest ++ e) := by
  unfold exponentDigits? at hd
  split at hd
  · exact map_someDigits_append (f := (false, ·)) hd h
  · exact map_someDigits_append (f := (true, ·)) hd h
  · next hp hm =>
    have hd' := map_someDigits_append (f := (false, ·)) hd h
    cases d with
    | nil => cases hd
    | cons g d =>
      unfold exponentDigits?
      split
      · next heq => cases heq; exact absurd rfl (hp _)
      · next heq => cases heq; exact absurd rfl (hm _)
      · exact hd'

theorem exponent?_of_ne (h : ∀ more, d ≠ some 'e' :: more) (h' : ∀ more, d ≠ some 'E' :: more) :
    exponent? d = some (none, d) := by
  unfold exponent?
  split
  · next more => exact absurd rfl (h more)
  · next more => exact absurd rfl (h' more)
  · rfl

theorem exponent?_append {x : Option (Bool × List Nat)} (hd : exponent? d = some (x, rest))
    (h : stops e = true) : exponent? (d ++ e) = some (x, rest ++ e) := by
  unfold exponent? at hd
  split at hd
  · obtain ⟨⟨y, r⟩, hs, heq⟩ := Option.map_eq_some_iff.1 hd
    cases heq
    show (exponentDigits? (_ ++ e)).map _ = _
    rw [exponentDigits?_append hs h]
    rfl
  · obtain ⟨⟨y, r⟩, hs, heq⟩ := Option.map_eq_some_iff.1 hd
    cases heq
    show (exponentDigits? (_ ++ e)).map _ = _
    rw [exponentDigits?_append hs h]
    rfl
  · next hl hu =>
    cases hd
    exact exponent?_of_ne (append_ne hl (ne_of_stops h (by decide)))
      (append_ne hu (ne_of_stops h (by decide)))

theorem whole?_append {w : List Nat} (hd : whole? d = some (w, rest)) (h : stops e = true) :
    whole? (d ++ e) = some (w, rest ++ e) := by
  unfold whole? at hd
  split at hd
  · cases hd
    rfl
  · next hz =>
    have hd' := someDigits_append hd h
    cases d with
    | nil => cases hd
    | cons g d =>
      unfold whole?
      split
      · next heq => cases heq; exact absurd rfl (hz _)
      · exact hd'

theorem unsigned?_append {minus : Bool} {n : Numeral} (hd : unsigned? minus d = some (n, rest))
    (h : stops e = true) : unsigned? minus (d ++ e) = some (n, rest ++ e) := by
  obtain ⟨⟨w, d₁⟩, hw, hd⟩ := Option.bind_eq_some_iff.1 hd
  obtain ⟨⟨f, d₂⟩, hf, hd⟩ := Option.bind_eq_some_iff.1 hd
  obtain ⟨⟨x, d₃⟩, hx, hd⟩ := Option.bind_eq_some_iff.1 hd
  cases hd
  refine Option.bind_eq_some_iff.2 ⟨_, whole?_append hw h, ?_⟩
  refine Option.bind_eq_some_iff.2 ⟨_, fraction?_append hf h, ?_⟩
  exact Option.bind_eq_some_iff.2 ⟨_, exponent?_append hx h, rfl⟩

theorem numeral?_append {n : Numeral} (hd : numeral? d = some (n, rest)) (h : stops e = true) :
    numeral? (d ++ e) = some (n, rest ++ e) := by
  unfold numeral? at hd
  split at hd
  · exact unsigned?_append (d := _) hd h
  · next hm =>
    have hd' := unsigned?_append hd h
    cases d with
    | nil => cases hd
    | cons g d =>
      unfold numeral?
      split
      · next heq => cases heq; exact absurd rfl (hm _)
      · exact hd'

/-! ### Tokens -/

theorem quoted_append {q : Quoted} {st : Stage} {s : Option String} (e : Document)
    (hd : quoted q st d = some (s, rest)) : quoted q st (d ++ e) = some (s, rest ++ e) := by
  fun_induction quoted q st d <;> simp_all [quoted]

/-- Whether a numeral can start with the character. -/
def startsNumeral (c : Char) : Bool := c = '-' || (digit? (some c)).isSome

theorem head_of_someDigits (hd : someDigits d = some (ds, rest)) :
    ∃ c more, d = some c :: more ∧ (digit? (some c)).isSome = true := by
  unfold someDigits at hd
  cases d with
  | nil => cases hd
  | cons g d =>
    simp only [digits] at hd
    cases hg : digit? g with
    | none => rw [hg] at hd; cases hd
    | some n =>
      cases g with
      | none => cases hg
      | some c => exact ⟨c, d, rfl, by rw [hg]; rfl⟩

theorem head_of_numeral? {n : Numeral} (hd : numeral? d = some (n, rest)) :
    ∃ c more, d = some c :: more ∧ startsNumeral c = true := by
  unfold numeral? at hd
  split at hd
  · next more => exact ⟨'-', more, rfl, rfl⟩
  · obtain ⟨⟨w, d₁⟩, hw, -⟩ := Option.bind_eq_some_iff.1 hd
    unfold whole? at hw
    split at hw
    · next more _ => exact ⟨'0', more, rfl, rfl⟩
    · obtain ⟨c, more, rfl, hc⟩ := head_of_someDigits hw
      exact ⟨c, more, rfl, by rw [startsNumeral, hc, Bool.or_true]⟩

theorem next?_of_startsNumeral {c : Char} (h : startsNumeral c = true) (more : Document) :
    next? (some c :: more) =
      (numeral? (some c :: more)).map fun (n, r) => (.scalar (.number n.number?), r) := by
  have ne {x : Char} (hx : startsNumeral x = false) : c ≠ x :=
    fun e => Bool.noConfusion ((e ▸ hx).symm.trans h)
  unfold next?
  split
  case h_1 heq => cases heq
  case h_12 => rfl
  all_goals
    next heq => exact absurd (Option.some.inj (List.cons.inj heq).1) (ne (by decide))

theorem next?_append (hd : next? d = some (t, rest)) (h : stops e = true) :
    next? (d ++ e) = some (t, rest ++ e) := by
  unfold next? at hd
  split at hd
  case h_1 => cases hd
  case h_8 rest =>
    obtain ⟨⟨s, more⟩, hs, heq⟩ := Option.map_eq_some_iff.1 hd
    cases heq
    show (quoted .empty .plain (rest ++ e)).map _ = _
    rw [quoted_append e hs]
    rfl
  case h_12 =>
    obtain ⟨⟨n, more⟩, hn, heq⟩ := Option.map_eq_some_iff.1 hd
    cases heq
    have hn' := numeral?_append hn h
    obtain ⟨c, more', rfl, hc⟩ := head_of_numeral? hn
    rw [List.cons_append, next?_of_startsNumeral hc, ← List.cons_append, hn']
    rfl
  all_goals
    cases hd
    rfl

/-! ### Scanning -/

theorem scan_eq (d : Document) :
    scan d = if (d.dropWhile isBlank).isEmpty then some []
      else (next? (d.dropWhile isBlank)).bind fun r => (scan r.2).map (r.1 :: ·) := by
  rw [scan]
  split
  · rfl
  · split
    · next h => simp only [h, Option.bind_none]
    · next h => simp only [h, Option.bind_some]

theorem scan_nil : scan [] = some [] := scan_eq []

/-- The first token and the others. -/
theorem scan_of_next? (hd : next? d = some (t, rest)) (hb : d.dropWhile isBlank = d) :
    scan d = (scan rest).map (t :: ·) := by
  rw [scan_eq, hb, hd]
  cases d with
  | nil => cases hd
  | cons g d => rfl

/-- A document that is one token. -/
theorem scan_token (hd : next? d = some (t, [])) (hb : d.dropWhile isBlank = d) :
    scan d = some [t] := by
  rw [scan_of_next? hd hb, scan_nil]
  rfl

/-- A document that starts with a bracket, a comma or a colon. -/
theorem scan_mark {c : Char} (h : next? (some c :: d) = some (t, d))
    (hc : isBlank (some c) = false) : scan (some c :: d) = (scan d).map (t :: ·) :=
  scan_of_next? h (List.dropWhile_cons_of_neg (by simp [hc]))

theorem scan_append {ts : List Token} (hd : scan d = some ts) (h : stops e = true) :
    scan (d ++ e) = (scan e).map (ts ++ ·) := by
  induction hn : d.length using Nat.strongRecOn generalizing d ts with
  | ind n ih =>
    rw [scan_eq] at hd
    rw [scan_eq, List.dropWhile_append]
    split at hd
    · next hb =>
      cases hd
      rw [if_pos hb, ← scan_eq]
      simp
    · next hb =>
      obtain ⟨⟨t, rest⟩, ht, hr⟩ := Option.bind_eq_some_iff.1 hd
      obtain ⟨ts', hs, rfl⟩ := Option.map_eq_some_iff.1 hr
      have hlt : rest.length < n :=
        hn ▸ Nat.lt_of_lt_of_le (next?_length ht) (length_dropWhile_isBlank d)
      have hne : ¬(d.dropWhile isBlank ++ e).isEmpty = true := by
        simp_all
      rw [if_neg hb, if_neg hne, next?_append ht h, Option.bind_some, ih rest.length hlt hs rfl,
        Option.map_map]
      rfl

/-- Two documents with a bracket, a comma or a colon between them. -/
theorem scan_parted {c : Char} {ts us : List Token} (h : next? (some c :: e) = some (t, e))
    (hc : isBlank (some c) = false) (hs : stops [some c] = true) (hd : scan d = some ts)
    (he : scan e = some us) : scan (d ++ some c :: e) = some (ts ++ t :: us) := by
  have stops : stops (some c :: e) = true := hs
  rw [scan_append hd stops, scan_mark h hc, he]
  rfl

end ServiceBus.Json.Token
