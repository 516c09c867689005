import PortArbiter.Decimal.Shortest
/-!
# Number texts

The texts written for a double: its shortest decimal in one of three styles, and the rounding of
its exact value to a fixed number of places.
-/

namespace PortArbiter

/-- How a double is written with its shortest digits. -/
structure NumberStyle where
  /-- A whole number ends in `.0`. -/
  pointOnWhole : Bool
  /-- Numbers below `10⁻⁴` and from `10¹⁶` on are written with an exponent. -/
  exponents : Bool
  nan : String

namespace NumberStyle

/-- Digits and a point, nothing else. -/
def plain : NumberStyle := ⟨false, false, "NaN"⟩

/-- A number that can be told from an integer, as documents need it. -/
def document : NumberStyle := ⟨true, false, "nan"⟩

/-- A number in the inspection text of a value. -/
def inspection : NumberStyle := ⟨true, true, "NaN"⟩

end NumberStyle

namespace Decimal

def zeros (n : Nat) : String :=
  String.ofList (List.replicate n '0')

/-- Digits with the point in its place, and whether the number is whole. -/
def positional (d : Decimal) : String × Bool :=
  let digits := Nat.repr d.digits
  let size : Int := digits.length + d.exponent
  if 0 ≤ d.exponent then (digits ++ zeros d.exponent.toNat, true)
  else if 0 < size then
    (String.ofList (digits.toList.take size.toNat) ++ "."
      ++ String.ofList (digits.toList.drop size.toNat), false)
  else ("0." ++ zeros size.natAbs ++ digits, false)

/-- One digit before the point, and the power of ten behind an `e`. -/
def scientific (d : Decimal) : String :=
  match (Nat.repr d.digits).toList with
  | [] => ""
  | first :: rest =>
    let fraction := if rest.isEmpty then "" else "." ++ String.ofList rest
    String.singleton first ++ fraction ++ "e" ++ toString (d.exponent + rest.length)

def text (style : NumberStyle) (d : Decimal) : String :=
  let tiny := d.value < (10 : Rat) ^ (-4 : Int)
  let huge := (10 : Rat) ^ (16 : Int) ≤ d.value
  if style.exponents ∧ d.digits ≠ 0 ∧ (tiny ∨ huge) then d.scientific
  else
    let (digits, whole) := d.positional
    if whole ∧ style.pointOnWhole then digits ++ ".0" else digits

/-- The whole number nearest to `v`, a tie going to the even one. -/
def roundEven (v : Rat) : Nat :=
  let floor := v.floor.toNat
  let rest := v - floor
  if rest < 1 / 2 then floor
  else if 1 / 2 < rest then floor + 1
  else floor + floor % 2

/-- The whole number nearest to `v`, a tie going to the larger one. -/
def roundUp (v : Rat) : Nat :=
  (v + 1 / 2).floor.toNat

end Decimal

/-- A text with a minus in front if the number is negative. -/
def signed (negative : Bool) (s : String) : String :=
  if negative then "-" ++ s else s

/-- The shortest text of a double in a style. -/
def NumberStyle.text (style : NumberStyle) (x : Float) : String :=
  match Reading.ofFloat x with
  | .nan => style.nan
  | .infinite negative => signed negative "inf"
  | .finite negative v => signed negative ((Decimal.shortest x.abs v).text style)

/-- The exact value of a double rounded to `places` places, ties to even. -/
def fixedText (places : Nat) (x : Float) : String :=
  match Reading.ofFloat x with
  | .nan => "NaN"
  | .infinite negative => signed negative "inf"
  | .finite negative v =>
    let scaled := Decimal.roundEven (v * (10 : Rat) ^ (places : Int))
    let fraction := Nat.repr (scaled % Nat.pow 10 places)
    signed negative
      (Nat.repr (scaled / Nat.pow 10 places) ++ "."
        ++ Decimal.zeros (places - fraction.length) ++ fraction)

end PortArbiter
