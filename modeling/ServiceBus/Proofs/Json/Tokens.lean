import ServiceBus.Json.Print
import ServiceBus.Proofs.Json.Scan
import ServiceBus.Proofs.Store.Names

/-!
# The tokens of written values

`Json.tokens` lists the tokens of a value's written form. A text is scanned as it was before it was
escaped, a whole number of 64 bits as itself, and so a value without fractions as its tokens
(`scan_render`).
-/

namespace ServiceBus

theorem Document.ofString_ofList (cs : List Char) :
    Document.ofString (String.ofList cs) = cs.map some := by
  simp [Document.ofString]

namespace Json.Token

/-! ### Texts -/

/-- Control characters are written with four digits, two of them zeros. -/
theorem digits_of_control {n : Nat} (h : n < 32) :
    Hex.digits 4 n = ['0', '0', Nat.digitChar (n / 16), Nat.digitChar (n % 16)] := by
  revert n
  decide

theorem unit_of_lt {cs : List Char} {n : Nat} (h : n < 0xD800) :
    Quoted.unit ⟨cs, true, none⟩ n = ⟨Char.ofNat n :: cs, true, none⟩ := by
  have h₁ : ¬(0xDC00 ≤ n ∧ n ≤ 0xDFFF) := by omega
  have h₂ : ¬(0xD800 ≤ n ∧ n ≤ 0xDBFF) := by omega
  simp [Quoted.unit, h₁, h₂, Quoted.push, Quoted.settle]

theorem quoted_escape (cs : List Char) (c : Char) (rest : Document) :
    quoted ⟨cs, true, none⟩ .plain ((escape c).map some ++ rest) =
      quoted ⟨c :: cs, true, none⟩ .plain rest := by
  unfold escape
  split
  · next h => subst h; rfl
  split
  · next h => subst h; rfl
  split
  · next h => subst h; rfl
  split
  · next h => subst h; rfl
  split
  · next h => subst h; rfl
  split
  · next h =>
    have hc : c = Char.ofNat 8 := by rw [← h, Char.ofNat_toNat]
    subst hc; rfl
  split
  · next h =>
    have hc : c = Char.ofNat 12 := by rw [← h, Char.ofNat_toNat]
    subst hc; rfl
  split
  · next h =>
    have high := Hex.digitChar_cases (n := c.toNat / 16) (by omega)
    have low := Hex.digitChar_cases (n := c.toNat % 16) (by omega)
    have hv : c.toNat / 16 * 16 + c.toNat % 16 = c.toNat := by omega
    have h0 : Hex.value? '0' = some 0 := rfl
    rw [digits_of_control h]
    simp [quoted, high.1, low.1, h0, hv, unit_of_lt (show c.toNat < 0xD800 by omega)]
  · next hq hb _ _ _ _ _ hs =>
    show quoted _ .plain (some c :: rest) = _
    simp [quoted, hq, hb, hs, Quoted.push, Quoted.settle]

theorem quoted_escapes (cs ds : List Char) (rest : Document) :
    quoted ⟨cs, true, none⟩ .plain ((ds.flatMap escape).map some ++ some '"' :: rest) =
      some (some (String.ofList (cs.reverse ++ ds)), rest) := by
  induction ds generalizing cs with
  | nil => simp [quoted, Quoted.text?, Quoted.settle]
  | cons c ds ih =>
    rw [List.flatMap_cons, List.map_append, List.append_assoc, quoted_escape, ih]
    simp

end Json.Token

namespace Numeral

/-- Digits that spell a number of 64 bits are read as it. -/
theorem grow_of_lt {n : Nat} {ds : List Nat} (h : ds.foldl (fun n d => n * 10 + d) n < wordLimit) :
    grow n ds = (ds.foldl (fun n d => n * 10 + d) n, []) := by
  have le (m : Nat) (ds : List Nat) : m ≤ ds.foldl (fun n d => n * 10 + d) m := by
    induction ds generalizing m with
    | nil => exact Nat.le_refl m
    | cons d ds ih => exact Nat.le_trans (by omega) (ih (m * 10 + d))
  induction ds generalizing n with
  | nil => rfl
  | cons d ds ih =>
    have hd : n * 10 + d < wordLimit := Nat.lt_of_le_of_lt (le _ ds) h
    rw [grow, if_pos hd]
    exact ih h

/-- The digits of a number. -/
def decimal (n : Nat) : List Nat := (Nat.toDigits 10 n).map fun c => c.toNat - 48

theorem grow_decimal {n : Nat} (h : n < wordLimit) : grow 0 (decimal n) = (n, []) := by
  have hn : (decimal n).foldl (fun n d => n * 10 + d) 0 = n := by
    have hc := Nat.ofDigitChars_ten_toDigits (n := n)
    simp only [Nat.ofDigitChars_eq_foldl, Nat.mul_comm 10] at hc
    rw [decimal, List.foldl_map]
    exact hc
  rw [grow_of_lt (by rwa [hn]), hn]

end Numeral

namespace Json.Token

theorem digit?_of_isDigit {c : Char} (h : c.isDigit = true) :
    digit? (some c) = some (c.toNat - 48) := by
  simp only [Char.isDigit, Bool.and_eq_true, decide_eq_true_eq] at h
  exact if_pos h

theorem digits_of_isDigit {cs : List Char} (h : ∀ c ∈ cs, c.isDigit = true) :
    digits (cs.map some) = (cs.map fun c => c.toNat - 48, []) := by
  induction cs with
  | nil => rfl
  | cons c cs ih =>
    have hc := digit?_of_isDigit (h c List.mem_cons_self)
    simp [digits, hc, ih fun c hc => h c (.tail _ hc)]

/-- No number but zero starts with a zero. -/
theorem toDigits_head {n : Nat} (h : 0 < n) : ∃ c cs, Nat.toDigits 10 n = c :: cs ∧ c ≠ '0' := by
  induction n using Nat.strongRecOn with
  | ind n ih =>
    rw [Nat.toDigits_eq_if (by decide)]
    split
    · next hn =>
      refine ⟨_, [], rfl, ?_⟩
      rw [Ne, Nat.digitChar_eq_zero]
      omega
    · next hn =>
      obtain ⟨c, cs, e, hc⟩ := ih (n / 10) (by omega) (by omega)
      exact ⟨c, cs ++ [(n % 10).digitChar], by rw [e]; rfl, hc⟩

theorem whole?_toDigits (n : Nat) :
    whole? ((Nat.toDigits 10 n).map some) = some (Numeral.decimal n, []) := by
  have hd := digits_of_isDigit fun c (hc : c ∈ Nat.toDigits 10 n) =>
    Nat.isDigit_of_mem_toDigits (by decide) (by decide) hc
  rcases Nat.eq_zero_or_pos n with rfl | h
  · rfl
  · obtain ⟨c, cs, e, hc⟩ := toDigits_head h
    have hw : whole? ((c :: cs).map some) = someDigits ((c :: cs).map some) := by
      unfold whole?
      split
      · next heq => exact absurd (Option.some.inj (List.cons.inj heq).1) hc
      · rfl
    rw [e, hw, someDigits, ← e, hd, Numeral.decimal, e]
    rfl

theorem unsigned?_toDigits (minus : Bool) (n : Nat) :
    unsigned? minus ((Nat.toDigits 10 n).map some) =
      some (⟨minus, Numeral.decimal n, none, none⟩, []) := by
  rw [unsigned?, whole?_toDigits]
  rfl

theorem numeral?_toDigits (n : Nat) : numeral? ((Nat.toDigits 10 n).map some) =
    some (⟨false, Numeral.decimal n, none, none⟩, []) := by
  rw [← unsigned?_toDigits]
  unfold numeral?
  split
  · next rest heq =>
    have hm : '-' ∈ Nat.toDigits 10 n := by
      have : some '-' ∈ (Nat.toDigits 10 n).map some := heq ▸ List.mem_cons_self
      simpa using this
    cases Nat.isDigit_of_mem_toDigits (by decide) (by decide) hm
  · rfl

end Json.Token

namespace Json
open Token Document

/-- The whole numbers of 64 bits, with a sign or without. -/
def isWord (i : Int) : Bool := -(Numeral.signedLimit : Int) ≤ i ∧ i < Numeral.wordLimit

/-- The written form of a whole number of 64 bits says that number. -/
theorem numeral?_renderNumber {i : Int} (h : isWord i = true) :
    ∃ n, numeral? (.ofString (renderNumber (.int i))) = some (n, []) ∧
      n.number? = some (.int i) := by
  obtain ⟨low, high⟩ := of_decide_eq_true h
  cases i with
  | ofNat n =>
    refine ⟨_, (congrArg numeral? (Document.ofString_ofList _)).trans (numeral?_toDigits n), ?_⟩
    have hn : n < Numeral.wordLimit := by
      simp only [Int.ofNat_eq_natCast] at high
      omega
    simp [Numeral.number?, Numeral.grow_decimal hn]
  | negSucc n =>
    have hs : renderNumber (.int (.negSucc n)) =
        String.ofList ('-' :: Nat.toDigits 10 (n + 1)) := by
      simp [renderNumber, toString, Int.repr, Nat.repr]
    have hn : n + 1 ≤ Numeral.signedLimit := by omega
    have hw : n + 1 < Numeral.wordLimit := Nat.lt_of_le_of_lt hn (by decide)
    refine ⟨⟨true, Numeral.decimal (n + 1), none, none⟩, ?_, ?_⟩
    · rw [hs, Document.ofString_ofList]
      exact unsigned?_toDigits true (n + 1)
    · simp [Numeral.number?, Numeral.grow_decimal hw, hn]
      omega

theorem scan_of_numeral? {d : Document} {n : Numeral} (hd : numeral? d = some (n, [])) :
    scan d = some [.scalar (.number n.number?)] := by
  obtain ⟨c, more, rfl, hc⟩ := head_of_numeral? hd
  have hb : (some c :: more).dropWhile isBlank = some c :: more := by
    apply List.dropWhile_cons_of_neg
    intro h
    simp only [isBlank, Bool.or_eq_true, decide_eq_true_eq] at h
    rcases h with ((rfl | rfl) | rfl) | rfl <;> cases hc
  refine scan_token ?_ hb
  rw [next?_of_startsNumeral hc, hd]
  rfl

theorem scan_renderText (s : String) :
    scan (.ofString (renderText s)) = some [.scalar (.text (some s))] := by
  have hd : Document.ofString (renderText s) =
      some '"' :: ((s.toList.flatMap escape).map some ++ [some '"']) := by
    simp [renderText, Document.ofString]
  rw [hd]
  refine scan_token ?_ rfl
  show (quoted .empty .plain _).map _ = _
  rw [Quoted.empty, quoted_escapes [] s.toList []]
  simp

mutual

/-- The tokens of a value's written form. -/
def tokens : Json → List Token
  | .null => [.scalar .null]
  | .bool b => [.scalar (.bool b)]
  | .number n => [.scalar (.number (some n))]
  | .text s => [.scalar (.text (some s))]
  | .array xs => .openArray :: (itemTokens xs ++ [.closeArray])
  | .object ms => .openObject :: (memberTokens ms ++ [.closeObject])

def itemTokens : List Json → List Token
  | [] => []
  | [x] => tokens x
  | x :: y :: rest => tokens x ++ .comma :: itemTokens (y :: rest)

def memberTokens : List (String × Json) → List Token
  | [] => []
  | [(k, x)] => .scalar (.text (some k)) :: .colon :: tokens x
  | (k, x) :: m :: rest =>
    .scalar (.text (some k)) :: .colon :: (tokens x ++ .comma :: memberTokens (m :: rest))

end

mutual

/-- Whether all numbers in the value are whole numbers of 64 bits. -/
def isWhole : Json → Bool
  | .number (.int i) => isWord i
  | .number (.float _) => false
  | .array xs => areWhole xs
  | .object ms => membersAreWhole ms
  | .null | .bool _ | .text _ => true

def areWhole : List Json → Bool
  | [] => true
  | x :: xs => isWhole x && areWhole xs

def membersAreWhole : List (String × Json) → Bool
  | [] => true
  | (_, x) :: rest => isWhole x && membersAreWhole rest

end

mutual

theorem scan_render : ∀ v : Json, v.isWhole = true → scan (.ofString v.render) = some v.tokens
  | .null, _ => scan_token rfl rfl
  | .bool true, _ => scan_token rfl rfl
  | .bool false, _ => scan_token rfl rfl
  | .number (.int i), h => by
    rw [isWhole] at h
    obtain ⟨n, hn, hi⟩ := numeral?_renderNumber h
    rw [render, tokens, scan_of_numeral? hn, hi]
  | .number (.float x), h => by
    cases h
  | .text s, _ => by
    rw [render, tokens, scan_renderText]
  | .array xs, h => by
    rw [isWhole] at h
    have hd : Document.ofString (render (.array xs)) =
        some '[' :: (ofString (renderItems xs) ++ [some ']']) := by
      simp [render, Document.ofString]
    rw [hd, scan_mark (t := .openArray) rfl rfl,
      scan_parted (t := .closeArray) rfl rfl rfl (scan_items xs h) scan_nil]
    rfl
  | .object ms, h => by
    rw [isWhole] at h
    have hd : Document.ofString (render (.object ms)) =
        some '\x7b' :: (ofString (renderMembers ms) ++ [some '\x7d']) := by
      simp [render, Document.ofString]
    rw [hd, scan_mark (t := .openObject) rfl rfl,
      scan_parted (t := .closeObject) rfl rfl rfl (scan_members ms h) scan_nil]
    rfl

theorem scan_items : ∀ xs : List Json, areWhole xs = true →
    scan (.ofString (renderItems xs)) = some (itemTokens xs)
  | [], _ => scan_nil
  | [x], h => by
    rw [areWhole, Bool.and_eq_true] at h
    rw [renderItems, itemTokens, scan_render x h.1]
  | x :: y :: rest, h => by
    rw [areWhole, Bool.and_eq_true] at h
    have hd : Document.ofString (renderItems (x :: y :: rest)) =
        ofString x.render ++ some ',' :: ofString (renderItems (y :: rest)) := by
      simp [renderItems, Document.ofString]
    rw [hd]
    exact scan_parted (t := .comma) rfl rfl rfl (scan_render x h.1) (scan_items (y :: rest) h.2)

theorem scan_members : ∀ ms : List (String × Json), membersAreWhole ms = true →
    scan (.ofString (renderMembers ms)) = some (memberTokens ms)
  | [], _ => scan_nil
  | [(k, x)], h => by
    rw [membersAreWhole, Bool.and_eq_true] at h
    have hd : Document.ofString (renderMembers [(k, x)]) =
        ofString (renderText k) ++ some ':' :: ofString x.render := by
      simp [renderMembers, Document.ofString]
    rw [hd]
    exact scan_parted (t := .colon) rfl rfl rfl (scan_renderText k) (scan_render x h.1)
  | (k, x) :: m :: rest, h => by
    rw [membersAreWhole, Bool.and_eq_true] at h
    have hd : Document.ofString (renderMembers ((k, x) :: m :: rest)) =
        ofString (renderText k) ++ some ':' :: (ofString x.render ++
          some ',' :: ofString (renderMembers (m :: rest))) := by
      simp [renderMembers, Document.ofString]
    rw [hd]
    refine scan_parted (t := .colon) rfl rfl rfl (scan_renderText k) ?_
    exact scan_parted (t := .comma) rfl rfl rfl (scan_render x h.1) (scan_members (m :: rest) h.2)

end

end Json
end ServiceBus

