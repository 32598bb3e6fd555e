/-!
# Percent encoding

`Percent.encode` writes any text with ASCII letters, digits, `-`, `_` and `%` alone: every other
byte of its UTF-8 form stands as a percent sign and two upper-case hexadecimal digits.
-/

namespace ServiceBus.Percent

def isKept (b : UInt8) : Bool :=
  (0x30 ≤ b && b ≤ 0x39) || (0x41 ≤ b && b ≤ 0x5A) || (0x61 ≤ b && b ≤ 0x7A) || b = 0x2D || b = 0x5F

def digit (n : Nat) : Char := Char.ofNat (if n < 10 then 48 + n else 55 + n)

def byte (b : UInt8) : List Char :=
  if isKept b then [Char.ofNat b.toNat] else ['%', digit (b.toNat / 16), digit (b.toNat % 16)]

def encode (s : String) : String := String.ofList (s.toUTF8.data.toList.flatMap byte)

end ServiceBus.Percent
