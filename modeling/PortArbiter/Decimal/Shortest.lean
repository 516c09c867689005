import PortArbiter.Decimal.Basic
/-!
# Shortest decimals

The decimal with the fewest digits that reads back as a given double. Of two such decimals with
equally many digits the nearer one is taken, and the larger one of two equally near.
-/

namespace PortArbiter.Decimal

/-- The power of ten of the leading digit: `10 ^ leading v ≤ v < 10 ^ (leading v + 1)`. -/
def leading (v : Rat) : Int :=
  if 1 ≤ v then ((Nat.toDigits 10 v.floor.toNat).length : Int) - 1
  else -((Nat.toDigits 10 ((1 / v).ceil.toNat - 1)).length : Int)

/-- Drop the zeros at the end, giving each up for a step of the exponent. -/
def trimZeros (d : Decimal) : Decimal :=
  let tail := ((Nat.toDigits 10 d.digits).reverse.takeWhile (· == '0')).length
  if d.digits = 0 then ⟨0, 0⟩ else ⟨d.digits / Nat.pow 10 tail, d.exponent + tail⟩

/-- The decimal of `places` significant digits closest to `v` that reads back as `x`. Only the two
neighbours of `v` with that many digits can be the closest one. -/
def closest? (x : Float) (v : Rat) (places : Nat) : Option Decimal :=
  let step := leading v + 1 - (places : Int)
  let scaled := v / (10 : Rat) ^ step
  let below : Decimal := ⟨scaled.floor.toNat, step⟩
  let above : Decimal := ⟨scaled.floor.toNat + 1, step⟩
  match below.toFloat == x, above.toFloat == x with
  | true, true => if v - below.value < above.value - v then some below else some above
  | true, false => some below
  | false, true => some above
  | false, false => none

/-- The exact decimal expansion of a magnitude whose denominator is a power of two. -/
def expansion (v : Rat) : Decimal :=
  let halvings := v.den.log2
  ⟨v.num.natAbs * Nat.pow 5 halvings, -(halvings : Int)⟩

/-- The shortest decimal that reads back as the positive double `x` of magnitude `v`. Seventeen
digits are enough for every double. -/
def shortest (x : Float) (v : Rat) : Decimal :=
  if v = 0 then ⟨0, 0⟩
  else (((List.range 17).findSome? fun n => closest? x v (n + 1)).getD (expansion v)).trimZeros

end PortArbiter.Decimal
