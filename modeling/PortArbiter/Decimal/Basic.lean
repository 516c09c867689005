/-!
# Decimal numbers

An unsigned decimal is a digit count scaled by a power of ten. Every finite double is exactly one
such number, up to its sign; the double nearest to a decimal is found by correct rounding.
-/

namespace PortArbiter

/-- The number `digits * 10 ^ exponent`. -/
structure Decimal where
  digits : Nat
  exponent : Int
deriving DecidableEq, Repr

namespace Decimal

/-- The exact number a decimal stands for. -/
def value (d : Decimal) : Rat :=
  (d.digits : Rat) * (10 : Rat) ^ d.exponent

/-- The double nearest to a decimal, a tie going to the even mantissa. -/
def toFloat (d : Decimal) : Float :=
  Float.ofScientific d.digits (d.exponent < 0) d.exponent.natAbs

end Decimal

/-- What the bits of a double say. A finite double is a sign and an exact magnitude, so the two
zeros differ in their sign alone. -/
inductive Reading where
  | nan
  | infinite (negative : Bool)
  | finite (negative : Bool) (magnitude : Rat)

namespace Reading

/-- The leading bit of a normal mantissa, which the 52 bits leave out. -/
def hidden : Nat := 0x10000000000000

/-- Decode the sign bit, the eleven bits of the exponent and the 52 bits of the mantissa. -/
def ofFloat (x : Float) : Reading :=
  let bits : Nat := x.toBits.toNat
  let negative : Bool := 0x8000000000000000 ≤ bits
  let scale : Nat := bits / hidden % 2048
  let fraction : Nat := bits % hidden
  if scale = 2047 then
    if fraction = 0 then .infinite negative else .nan
  else if scale = 0 then
    .finite negative ((fraction : Rat) * (2 : Rat) ^ (-1074 : Int))
  else
    .finite negative (((hidden + fraction : Nat) : Rat) * (2 : Rat) ^ ((scale : Int) - 1075))

end Reading

end PortArbiter
