import ServiceBus.Decimal.Binary64

/-!
# Shortest decimal texts

The shortest decimal of a number is the one with the fewest digits among those that round back to
it, and of these the nearest. `Decimal.shortest` finds it in exact natural-number arithmetic: for
1, 2, … digits it looks at the two points of that decimal grid beside the number. `Decimal.Layout`
holds what a format decides beyond the digits, and `Decimal.write` applies it.
-/

namespace ServiceBus

namespace Decimal

/-- The size of a positive number and the interval of reals that round to it, in quarters of a unit
of its last binary place: `low ≤ x ≤ high` with the ends included when `closed`. -/
structure Target where
  low : Nat
  mid : Nat
  high : Nat
  closed : Bool
  /-- The interval is measured in units of `2 ^ unit`. -/
  unit : Int

/-- The interval around a positive finite number. -/
def Target.of (x : Binary64) : Target :=
  let (m, q) := x.parts
  ⟨4 * m - (if x.gapBelowIsHalf then 1 else 2), 4 * m, 4 * m + 2, m % 2 == 0, q - 2⟩

/-- A point `k · 10 ^ e` of a decimal grid against a point `t` of the target's scale: the two sides
after multiplying both out to naturals. -/
def Target.sides (g : Target) (e : Int) : Nat × Nat :=
  (Nat.pow 10 e.toNat * Nat.pow 2 (-g.unit).toNat, Nat.pow 10 (-e).toNat * Nat.pow 2 g.unit.toNat)

/-- Whether `k · 10 ^ e` rounds to the number. -/
def Target.holds (g : Target) (e : Int) (k : Nat) : Bool :=
  let (a, b) := g.sides e
  if g.closed then g.low * b ≤ k * a && k * a ≤ g.high * b
  else g.low * b < k * a && k * a < g.high * b

/-- The least `e` with `x < 10 ^ (e + 1)`, found upwards from a guess that is not too large. -/
def Target.magnitude (g : Target) : Nat → Int → Int
  | 0, e => e
  | n + 1, e =>
    let (a, b) := g.sides (e + 1)
    if a ≤ g.mid * b then g.magnitude n (e + 1) else e

/-- The power of ten of the first digit. -/
def Target.leading (g : Target) : Int :=
  let guess := (g.unit + (Nat.log2 g.mid : Int)) * 30103 / 100000 - 1
  g.magnitude 4 guess

/-- The point on the grid of `10 ^ e` that rounds to the number and is nearest to it; of two equally
near ones the even one. -/
def Target.pick (g : Target) (e : Int) : Option Nat :=
  let (a, b) := g.sides e
  let k := g.mid * b / a
  let below := g.mid * b - k * a
  let above := (k + 1) * a - g.mid * b
  match g.holds e k && 0 < k, g.holds e (k + 1) with
  | true, true =>
    if below < above then some k
    else if above < below then some (k + 1)
    else if k % 2 == 0 then some k else some (k + 1)
  | true, false => some k
  | false, true => some (k + 1)
  | false, false => none

/-- The first grid from `10 ^ e` downwards that has a point which rounds to the number. -/
def Target.search (g : Target) : Nat → Int → Nat × Int
  | 0, e => (g.pick e |>.getD 0, e)
  | n + 1, e =>
    match g.pick e with
    | some k => (k, e)
    | none => g.search n (e - 1)

/-- Moves the zeros at the end of `k` into the exponent. -/
def trim : Nat → Nat → Int → Nat × Int
  | 0, k, e => (k, e)
  | n + 1, k, e => if k ≠ 0 ∧ k % 10 = 0 then trim n (k / 10) (e + 1) else (k, e)

/-- The digits `k` and exponent `e` of the shortest decimal `k · 10 ^ e` of a positive finite
number. -/
def shortest (x : Binary64) : Nat × Int :=
  let g := Target.of x
  let (k, e) := g.search 17 g.leading
  trim 20 k e

/-- What a format decides beyond the digits of a number. -/
structure Layout where
  /-- The least power of ten of a first digit that is written positionally. -/
  least : Int
  /-- The greatest power of ten of a first digit that is written positionally. -/
  greatest : Int
  /-- Written after a whole number in positional form. -/
  whole : String
  /-- Written before an exponent that is not negative. -/
  plus : String

/-- Digits in positional form, the last one standing for `10 ^ e`. -/
def positional (l : Layout) (ds : List Char) (e : Int) : String :=
  if 0 ≤ e then String.ofList (ds ++ List.replicate e.toNat '0') ++ l.whole
  else
    let places := (-e).toNat
    if places < ds.length then
      String.ofList (ds.take (ds.length - places)) ++ "." ++
        String.ofList (ds.drop (ds.length - places))
    else "0." ++ String.ofList (List.replicate (places - ds.length) '0' ++ ds)

/-- Digits in exponent form, the last one standing for `10 ^ e`. -/
def scientific (l : Layout) (ds : List Char) (e : Int) : String :=
  let lead := e + (ds.length : Int) - 1
  let mantissa := match ds with
    | [] => ""
    | [d] => String.singleton d
    | d :: more => String.singleton d ++ "." ++ String.ofList more
  let sign := if 0 ≤ lead then l.plus else "-"
  mantissa ++ "e" ++ sign ++ toString lead.natAbs

def write (l : Layout) (x : Binary64) : String :=
  let sign := if x.negative then "-" else ""
  if x.parts.1 = 0 then sign ++ "0" ++ l.whole
  else
    let (k, e) := shortest x
    let ds := Nat.toDigits 10 k
    let lead := e + (ds.length : Int) - 1
    sign ++ (if l.least ≤ lead ∧ lead ≤ l.greatest then positional l ds e else scientific l ds e)

end Decimal

end ServiceBus
