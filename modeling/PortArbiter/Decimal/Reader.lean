import PortArbiter.Decimal.Basic
/-!
# Reading numbers

The grammar of a number in a carrier specification or on the command line: an optional sign, then
digits with an optional point and an optional exponent, or one of the words `inf`, `infinity` and
`nan` in any letter case. A number is read as the double nearest to it.
-/

namespace PortArbiter.Decimal

def ofDigits (cs : List Char) : Nat :=
  cs.foldl (fun n c => 10 * n + (c.toNat - '0'.toNat)) 0

/-- Split a text after its leading digits. -/
def spanDigits (cs : List Char) : List Char × List Char :=
  (cs.takeWhile Char.isDigit, cs.dropWhile Char.isDigit)

/-- Split off a sign; `true` is a minus. -/
def spanSign : List Char → Bool × List Char
  | '-' :: cs => (true, cs)
  | '+' :: cs => (false, cs)
  | cs => (false, cs)

/-- A whole exponent: an optional sign and at least one digit. -/
def exponent? (cs : List Char) : Option Int :=
  let (negative, digits) := spanSign cs
  if digits.isEmpty ∨ ¬ digits.all Char.isDigit then none
  else some (if negative then -(ofDigits digits : Int) else ofDigits digits)

/-- An unsigned decimal: digits on at least one side of the point, then the exponent, if any. -/
def parse? (cs : List Char) : Option Decimal :=
  let (whole, rest) := spanDigits cs
  let (fraction, rest) :=
    match rest with
    | '.' :: rest => spanDigits rest
    | rest => ([], rest)
  if whole.isEmpty ∧ fraction.isEmpty then none
  else
    let number (e : Int) : Decimal := ⟨ofDigits (whole ++ fraction), e - fraction.length⟩
    match rest with
    | [] => some (number 0)
    | c :: rest => if c = 'e' ∨ c = 'E' then (exponent? rest).map number else none

end PortArbiter.Decimal

namespace PortArbiter

private def infinity : Float := Float.ofBits 0x7ff0000000000000

private def notANumber : Float := Float.ofBits 0x7ff8000000000000

/-- The double a text spells, by the grammar above. -/
def readNumber? (s : String) : Option Float :=
  let (negative, cs) := Decimal.spanSign s.toList
  let word := String.ofList (cs.map Char.toLower)
  let magnitude? :=
    if word = "inf" ∨ word = "infinity" then some infinity
    else if word = "nan" then some notANumber
    else (Decimal.parse? cs).map Decimal.toFloat
  magnitude?.map fun x => if negative then -x else x

end PortArbiter
