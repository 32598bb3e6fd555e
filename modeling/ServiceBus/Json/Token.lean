import ServiceBus.Json.Numeral
import ServiceBus.Json.Raw
import ServiceBus.Text.Document
import ServiceBus.Text.Hex

/-!
# JSON tokens

`Token.scan` cuts a document into tokens, leaving out blanks. A quoted text is read by a small
machine, one glyph at a time (`Token.quoted`): what a `\u` escape adds is decided when its four
digits are in, and half of a surrogate pair or a stray byte makes the text unkeepable without
ending it.
-/

namespace ServiceBus.Json

inductive Token where
  | openArray
  | closeArray
  | openObject
  | closeObject
  | comma
  | colon
  /-- A value without parts. -/
  | scalar (r : Raw)
  deriving Repr, Inhabited

namespace Token

/-! ### Quoted texts -/

/-- A quoted text while it is read: its characters, last first, whether it can be kept, and the
first half of a surrogate pair that waits for the second. -/
structure Quoted where
  chars : List Char
  kept : Bool
  half : Option Nat

def Quoted.empty : Quoted := ⟨[], true, none⟩

/-- A pair that was not completed makes the text unkeepable. -/
def Quoted.settle (q : Quoted) : Quoted := ⟨q.chars, q.kept && q.half.isNone, none⟩

def Quoted.push (q : Quoted) (c : Char) : Quoted :=
  let q := q.settle
  { q with chars := c :: q.chars }

def Quoted.stray (q : Quoted) : Quoted := { q.settle with kept := false }

def Quoted.unit (q : Quoted) (u : Nat) : Quoted :=
  if 0xDC00 ≤ u ∧ u ≤ 0xDFFF then
    match q.half with
    | some h =>
      ⟨Char.ofNat (0x10000 + (h - 0xD800) * 0x400 + (u - 0xDC00)) :: q.chars, q.kept, none⟩
    | none => q.stray
  else if 0xD800 ≤ u ∧ u ≤ 0xDBFF then { q.settle with half := some u }
  else q.push (Char.ofNat u)

/-- The text that was read, if it can be kept. -/
def Quoted.text? (q : Quoted) : Option String :=
  let q := q.settle
  if q.kept then some (String.ofList q.chars.reverse) else none

/-- The character that a backslash and a letter stand for. -/
def shortEscape? (c : Char) : Option Char :=
  if c = '"' ∨ c = '\\' ∨ c = '/' then some c
  else if c = 'b' then some (Char.ofNat 8)
  else if c = 'f' then some (Char.ofNat 12)
  else if c = 'n' then some '\n'
  else if c = 'r' then some '\r'
  else if c = 't' then some '\t'
  else none

/-- Where the reader of a quoted text stands: between characters, after a backslash, or with so many
digits of a unit to come. -/
inductive Stage where
  | plain
  | backslash
  | unit (left value : Nat)

/-- Reads a quoted text up to its closing quote; gives the text and what follows it. -/
def quoted (q : Quoted) : Stage → Document → Option (Option String × Document)
  | _, [] => none
  | .plain, none :: rest => quoted q.stray .plain rest
  | .plain, some c :: rest =>
    if c = '"' then some (q.text?, rest)
    else if c = '\\' then quoted q .backslash rest
    else if c.toNat < 32 then none
    else quoted (q.push c) .plain rest
  | .backslash, some c :: rest =>
    if c = 'u' then quoted q (.unit 3 0) rest
    else match shortEscape? c with
      | some d => quoted (q.push d) .plain rest
      | none => none
  | .unit left value, some c :: rest =>
    match Hex.value? c with
    | none => none
    | some d =>
      match left with
      | 0 => quoted (q.unit (value * 16 + d)) .plain rest
      | n + 1 => quoted q (.unit n (value * 16 + d)) rest
  | _, none :: _ => none

/-! ### Numerals -/

/-- The value of a decimal digit. -/
def digit? : Glyph → Option Nat
  | some c => if '0' ≤ c ∧ c ≤ '9' then some (c.toNat - 48) else none
  | none => none

/-- The digits at the front and what follows them. -/
def digits : Document → List Nat × Document
  | [] => ([], [])
  | g :: rest =>
    match digit? g with
    | some d => let (ds, more) := digits rest; (d :: ds, more)
    | none => ([], g :: rest)

/-- The digits at the front, of which there must be one. -/
def someDigits (d : Document) : Option (List Nat × Document) :=
  match digits d with
  | ([], _) => none
  | r => some r

/-- A fraction, if a point comes first. -/
def fraction? : Document → Option (Option (List Nat) × Document)
  | some '.' :: rest => (someDigits rest).map fun (ds, more) => (some ds, more)
  | d => some (none, d)

/-- The digits of an exponent after its letter, with a sign in front or not. -/
def exponentDigits? : Document → Option ((Bool × List Nat) × Document)
  | some '+' :: rest => (someDigits rest).map fun (ds, more) => ((false, ds), more)
  | some '-' :: rest => (someDigits rest).map fun (ds, more) => ((true, ds), more)
  | d => (someDigits d).map fun (ds, more) => ((false, ds), more)

/-- An exponent, if its letter comes first. -/
def exponent? : Document → Option (Option (Bool × List Nat) × Document)
  | some 'e' :: rest => (exponentDigits? rest).map fun (e, more) => (some e, more)
  | some 'E' :: rest => (exponentDigits? rest).map fun (e, more) => (some e, more)
  | d => some (none, d)

/-- The whole part: a zero alone, or digits that start with another one. -/
def whole? (d : Document) : Option (List Nat × Document) :=
  match d with
  | some '0' :: rest => some ([0], rest)
  | d => someDigits d

/-- A numeral without its sign. -/
def unsigned? (negative : Bool) (d : Document) : Option (Numeral × Document) := do
  let (w, d) ← whole? d
  let (f, d) ← fraction? d
  let (e, d) ← exponent? d
  some (⟨negative, w, f, e⟩, d)

/-- A numeral at the front. -/
def numeral? : Document → Option (Numeral × Document)
  | some '-' :: rest => unsigned? true rest
  | d => unsigned? false d

/-! ### Scanning -/

/-- The blanks between tokens. -/
def isBlank : Glyph → Bool
  | some c => c = ' ' || c = '\n' || c = '\t' || c = '\r'
  | none => false

/-- The token at the front of a document without leading blanks. -/
def next? : Document → Option (Token × Document)
  | [] => none
  | some '[' :: rest => some (.openArray, rest)
  | some ']' :: rest => some (.closeArray, rest)
  | some '\x7b' :: rest => some (.openObject, rest)
  | some '\x7d' :: rest => some (.closeObject, rest)
  | some ',' :: rest => some (.comma, rest)
  | some ':' :: rest => some (.colon, rest)
  | some '"' :: rest =>
    (quoted .empty .plain rest).map fun (s, more) => (.scalar (.text s), more)
  | some 'n' :: some 'u' :: some 'l' :: some 'l' :: rest => some (.scalar .null, rest)
  | some 't' :: some 'r' :: some 'u' :: some 'e' :: rest => some (.scalar (.bool true), rest)
  | some 'f' :: some 'a' :: some 'l' :: some 's' :: some 'e' :: rest =>
    some (.scalar (.bool false), rest)
  | d => (numeral? d).map fun (n, more) => (.scalar (.number n.number?), more)

/-! ### Every token takes something -/

theorem quoted_length {q : Quoted} {st : Stage} {d rest : Document} {s : Option String}
    (h : quoted q st d = some (s, rest)) : rest.length < d.length := by
  fun_induction quoted q st d <;> simp_all <;> omega

theorem digits_length (d : Document) : (digits d).2.length + (digits d).1.length = d.length := by
  induction d with
  | nil => rfl
  | cons g d ih =>
    simp only [digits]
    split
    · simp
      omega
    · simp

theorem someDigits_length {d rest : Document} {ds : List Nat} (h : someDigits d = some (ds, rest)) :
    rest.length < d.length := by
  have hd := digits_length d
  unfold someDigits at h
  split at h
  · simp at h
  · next r hr =>
    injection h with h
    rw [h] at hd
    cases ds with
    | nil => exact absurd h (hr rest)
    | cons _ _ => simp at hd; omega

theorem fraction?_length {d rest : Document} {f : Option (List Nat)}
    (h : fraction? d = some (f, rest)) : rest.length ≤ d.length := by
  unfold fraction? at h
  split at h
  · next r =>
    simp only [Option.map_eq_some_iff, Prod.mk.injEq] at h
    obtain ⟨⟨ds, more⟩, hr, -, rfl⟩ := h
    have := someDigits_length hr
    simp; omega
  · simp_all

theorem exponentDigits?_length {d rest : Document} {e : Bool × List Nat}
    (h : exponentDigits? d = some (e, rest)) : rest.length ≤ d.length := by
  unfold exponentDigits? at h
  split at h <;>
  · simp only [Option.map_eq_some_iff, Prod.mk.injEq] at h
    obtain ⟨⟨ds, more⟩, hr, -, rfl⟩ := h
    have := someDigits_length hr
    simp_all; try omega

theorem exponent?_length {d rest : Document} {e : Option (Bool × List Nat)}
    (h : exponent? d = some (e, rest)) : rest.length ≤ d.length := by
  unfold exponent? at h
  split at h
  · simp only [Option.map_eq_some_iff, Prod.mk.injEq] at h
    obtain ⟨⟨ds, more⟩, hr, -, rfl⟩ := h
    have := exponentDigits?_length hr
    simp; omega
  · simp only [Option.map_eq_some_iff, Prod.mk.injEq] at h
    obtain ⟨⟨ds, more⟩, hr, -, rfl⟩ := h
    have := exponentDigits?_length hr
    simp; omega
  · simp_all

theorem whole?_length {d rest : Document} {w : List Nat} (h : whole? d = some (w, rest)) :
    rest.length < d.length := by
  unfold whole? at h
  split at h
  · simp_all
  · exact someDigits_length h

theorem unsigned?_length {b : Bool} {d rest : Document} {n : Numeral}
    (h : unsigned? b d = some (n, rest)) : rest.length < d.length := by
  simp only [unsigned?, Option.bind_eq_bind, Option.bind_eq_some_iff] at h
  obtain ⟨⟨w, d1⟩, hw, ⟨f, d2⟩, hf, ⟨e, d3⟩, he, hr⟩ := h
  injection hr with hr
  injection hr with _ hr
  subst hr
  have := whole?_length hw
  have := fraction?_length hf
  have := exponent?_length he
  simp only at *
  omega

theorem numeral?_length {d rest : Document} {n : Numeral} (h : numeral? d = some (n, rest)) :
    rest.length < d.length := by
  unfold numeral? at h
  split at h
  · have := unsigned?_length h
    simp; omega
  · exact unsigned?_length h

theorem next?_length {d rest : Document} {t : Token} (h : next? d = some (t, rest)) :
    rest.length < d.length := by
  unfold next? at h
  split at h
  case h_8 =>
    simp only [Option.map_eq_some_iff, Prod.mk.injEq] at h
    obtain ⟨⟨s, more⟩, hr, -, rfl⟩ := h
    have := quoted_length hr
    simp; omega
  case h_12 =>
    simp only [Option.map_eq_some_iff, Prod.mk.injEq] at h
    obtain ⟨⟨n, more⟩, hr, -, rfl⟩ := h
    exact numeral?_length hr
  case h_1 => simp at h
  all_goals
    simp only [Option.some.injEq, Prod.mk.injEq] at h
    obtain ⟨-, rfl⟩ := h
    simp only [List.length_cons]
    omega

theorem length_dropWhile_isBlank (d : Document) : (d.dropWhile isBlank).length ≤ d.length :=
  (List.dropWhile_suffix isBlank).length_le

def scan (d : Document) : Option (List Token) :=
  let d' := d.dropWhile isBlank
  if d'.isEmpty then some []
  else
    match h : next? d' with
    | none => none
    | some (t, rest) =>
      have : rest.length < d.length :=
        Nat.lt_of_lt_of_le (next?_length h) (length_dropWhile_isBlank d)
      (scan rest).map (t :: ·)
termination_by d.length

end Token

end ServiceBus.Json
