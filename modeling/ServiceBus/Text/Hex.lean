/-!
# Hexadecimal text

`Hex.digits width n` writes a number in lower case with at least `width` digits; `Hex.bytes?` reads
a text of digit pairs.
-/

namespace ServiceBus.Hex

def digit (n : Nat) : Char := Char.ofNat (if n < 10 then 48 + n else 87 + n)

/-- The value of a digit in either case. -/
def value? (c : Char) : Option Nat :=
  if '0' ≤ c ∧ c ≤ '9' then some (c.toNat - 48)
  else if 'a' ≤ c ∧ c ≤ 'f' then some (c.toNat - 87)
  else if 'A' ≤ c ∧ c ≤ 'F' then some (c.toNat - 55)
  else none

/-- The digits of `n`, without padding. -/
def plain (n : Nat) : List Char := (Nat.toDigits 16 n)

/-- The digits of `n` in lower case, padded with zeros to `width`. -/
def digits (width n : Nat) : List Char :=
  let ds := plain n
  List.replicate (width - ds.length) '0' ++ ds

/-- The bytes that pairs of digits spell. -/
def bytes? : List Char → Option (List UInt8)
  | [] => some []
  | a :: b :: rest => do
    let x ← value? a
    let y ← value? b
    let bs ← bytes? rest
    some (UInt8.ofNat (x * 16 + y) :: bs)
  | [_] => none

end ServiceBus.Hex
