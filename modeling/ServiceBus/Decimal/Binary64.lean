/-!
# Double-precision numbers

`Binary64` is a number in the binary interchange format of 64 bits, kept as its bits so that two
numbers are the same exactly when they are written the same. A finite one is `m · 2 ^ q` with a
sign; `Binary64.parts` gives `m` and `q`.
-/

namespace ServiceBus

structure Binary64 where
  bits : UInt64
  deriving DecidableEq, Repr

namespace Binary64

def ofFloat (x : Float) : Binary64 := ⟨x.toBits⟩

def toFloat (x : Binary64) : Float := Float.ofBits x.bits

def negative (x : Binary64) : Bool := x.bits >>> 63 == 1

def exponent (x : Binary64) : Nat := ((x.bits >>> 52) &&& 0x7FF).toNat

def fraction (x : Binary64) : Nat := (x.bits &&& 0xFFFFFFFFFFFFF).toNat

def isFinite (x : Binary64) : Bool := x.exponent != 0x7FF

/-- The significand `m` and exponent `q` of a finite number, whose size is `m · 2 ^ q`. -/
def parts (x : Binary64) : Nat × Int :=
  if x.exponent == 0 then (x.fraction, -1074)
  else (x.fraction + 0x10000000000000, (x.exponent : Int) - 1075)

/-- Whether the gap to the next smaller number is half the gap to the next larger one. -/
def gapBelowIsHalf (x : Binary64) : Bool := x.fraction == 0 && 1 < x.exponent

end Binary64

end ServiceBus
