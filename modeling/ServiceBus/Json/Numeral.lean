import ServiceBus.Json.Basic

/-!
# Numerals

A `Numeral` is a number as a document spells it. `Numeral.number?` gives its value: a whole number
of 64 bits exactly, anything else in double precision. The double is the leading digits that fit in
64 bits, scaled by one power of ten in double arithmetic, so it can be one unit off the nearest
double; a numeral too large for any double has no value.
-/

namespace ServiceBus

/-- A number as it is spelled; digits are values below ten. -/
structure Numeral where
  negative : Bool
  whole : List Nat
  /-- The digits after the point. -/
  fraction : Option (List Nat)
  /-- The exponent's sign (`true` for a minus) and digits. -/
  exponent : Option (Bool × List Nat)
  deriving DecidableEq, Repr

namespace Numeral

/-- One more than the greatest whole number of 64 bits. -/
def wordLimit : Nat := 0x10000000000000000

/-- The size of the least whole number of 64 bits with a sign. -/
def signedLimit : Nat := 0x8000000000000000

/-- Appends digits while the number fits in 64 bits; the digits that no longer fit are left. -/
def grow (n : Nat) : List Nat → Nat × List Nat
  | [] => (n, [])
  | d :: ds => if n * 10 + d < wordLimit then grow (n * 10 + d) ds else (n, d :: ds)

/-- A power of ten in double precision. -/
def power (e : Nat) : Float := Float.ofScientific 1 false e

/-- `x · 10 ^ e`, in steps that stay within the powers a double can hold. -/
def scale : Nat → Float → Int → Option Float
  | 0, x, _ => some x
  | n + 1, x, e =>
    if e.natAbs ≤ 308 then
      if 0 ≤ e then
        let y := x * power e.natAbs
        if y.isInf then none else some y
      else some (x / power e.natAbs)
    else if x == 0.0 then some x
    else if 0 ≤ e then none
    else scale n (x / power 308) (e + 308)

/-- The greatest exponent that is still counted. -/
def exponentLimit : Nat := 2147483647

/-- The value of exponent digits, if it is within the limit. -/
def exponentOf (ds : List Nat) : Option Nat :=
  ds.foldlM (fun n d => if n * 10 + d ≤ exponentLimit then some (n * 10 + d) else none) 0

/-- The double of a significand and an exponent, with a sign. -/
def double (negative : Bool) (significand : Nat) (e : Int) : Option Number := do
  let x ← scale 8 significand.toUInt64.toFloat e
  some (.float (.ofFloat (if negative then -x else x)))

/-- The value of a numeral; `none` when it is too large for a double. -/
def number? (n : Numeral) : Option Number :=
  let (whole, left) := grow 0 n.whole
  match n.fraction, n.exponent with
  | none, none =>
    if left ≠ [] then double n.negative whole left.length
    else if !n.negative then some (.int whole)
    else if 1 ≤ whole ∧ whole ≤ signedLimit then some (.int (-(whole : Int)))
    else double true whole 0
  | fraction, exponent =>
    let ds := fraction.getD []
    let (significand, dropped) := grow whole ds
    let start : Int := (left.length : Int) - (ds.length - dropped.length : Nat)
    match exponent with
    | none => double n.negative significand start
    | some (minus, es) =>
      match exponentOf es with
      | some e =>
        let sum := if minus then start - e else start + e
        double n.negative significand (max (-2147483648) (min 2147483647 sum))
      | none =>
        if significand ≠ 0 ∧ minus = false then none
        else double n.negative 0 0

end Numeral

end ServiceBus
