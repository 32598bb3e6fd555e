/-!
# Documents

A `Document` is what a file or a message holds before anything has read it: a sequence of glyphs,
each a character or a byte that belongs to no character. `Document.ofString` never holds a stray
byte, `Document.ofBytes` reads UTF-8 and keeps every stray byte as `none`, so a reader can refuse
it where the text matters and step over it where it does not.
-/

namespace ServiceBus

/-- A character, or `none` for a byte that belongs to no character. -/
abbrev Glyph := Option Char

/-- A sequence of characters and stray bytes. -/
abbrev Document := List Glyph

namespace Document

def ofString (s : String) : Document := s.toList.map some

/-- The text a document spells, if it holds no stray byte. -/
def text? (d : Document) : Option String := (d.mapM id).map String.ofList

/-! ### UTF-8 -/

/-- The six low bits of a continuation byte. -/
def tail? (b : UInt8) : Option Nat :=
  if 0x80 ≤ b ∧ b ≤ 0xBF then some (b.toNat - 0x80) else none

/-- The six low bits of continuation byte number `i`. -/
def tailAt? (bs : List UInt8) (i : Nat) : Option Nat := bs[i]? >>= tail?

/-- The character that starts at `b`, and how many of the bytes after `b` it takes. Overlong forms,
surrogates and values past the last character are refused. -/
def leading? (b : UInt8) (rest : List UInt8) : Option (Char × Nat) :=
  let b := b.toNat
  if b < 0x80 then some (Char.ofNat b, 0)
  else if b < 0xC2 then none
  else if b < 0xE0 then do
    let t ← tailAt? rest 0
    some (Char.ofNat ((b - 0xC0) * 64 + t), 1)
  else if b < 0xF0 then do
    let t ← tailAt? rest 0
    let u ← tailAt? rest 1
    let n := (b - 0xE0) * 4096 + t * 64 + u
    if n < 0x800 ∨ (0xD800 ≤ n ∧ n ≤ 0xDFFF) then none else some (Char.ofNat n, 2)
  else if b < 0xF5 then do
    let t ← tailAt? rest 0
    let u ← tailAt? rest 1
    let v ← tailAt? rest 2
    let n := (b - 0xF0) * 262144 + t * 4096 + u * 64 + v
    if n < 0x10000 ∨ 0x10FFFF < n then none else some (Char.ofNat n, 3)
  else none

/-- Reads UTF-8; a byte that starts no character stands as a stray glyph. -/
def ofBytes : List UInt8 → Document
  | [] => []
  | b :: rest =>
    match leading? b rest with
    | some (c, n) => some c :: ofBytes (rest.drop n)
    | none => none :: ofBytes rest
termination_by bs => bs.length
decreasing_by all_goals simp only [List.length_cons, List.length_drop]; omega

@[simp] theorem text?_nil : text? [] = some "" := rfl

theorem text?_ofString (s : String) : (ofString s).text? = some s := by
  have h : ∀ cs : List Char, (cs.map some).mapM (m := Option) id = some cs := by
    intro cs
    induction cs with
    | nil => rfl
    | cons c cs ih => simp [ih]
  simp [text?, ofString, h]

end Document

end ServiceBus
