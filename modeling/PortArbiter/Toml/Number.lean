import PortArbiter.Toml.Moment
import PortArbiter.Toml.Quoted
import PortArbiter.Toml.Value
/-!
# TOML numbers

Integers in four bases, and floating-point numbers. An underscore may stand between two digits.
-/

namespace PortArbiter.Toml

/-- Digits and single underscores between them; the answer leaves the underscores out. -/
def moreDigits (isDigit : Char → Bool) : List Char → Option (List Char × List Char)
  | [] => some ([], [])
  | '_' :: c :: cs =>
    if isDigit c then (moreDigits isDigit cs).map fun (digits, rest) => (c :: digits, rest)
    else none
  | c :: cs =>
    if isDigit c then (moreDigits isDigit cs).map fun (digits, rest) => (c :: digits, rest)
    else if c = '_' then none
    else some ([], c :: cs)

/-- At least one digit, and more of them. -/
def digits? (isDigit : Char → Bool) : List Char → Option (List Char × List Char)
  | [] => none
  | c :: cs =>
    if isDigit c then (moreDigits isDigit cs).map fun (digits, rest) => (c :: digits, rest)
    else none

/-- The digits of a whole number: a zero alone, or digits that do not begin with one. -/
def wholeDigits? : List Char → Option (List Char × List Char)
  | '0' :: cs => some (['0'], cs)
  | cs => digits? Char.isDigit cs

/-- The power of ten behind an `e`. -/
def exponentPart? : List Char → Option (Int × List Char)
  | [] => none
  | c :: cs =>
    if c = 'e' ∨ c = 'E' then do
      let (negative, cs) := Decimal.spanSign cs
      let (digits, rest) ← digits? Char.isDigit cs
      let e : Int := Decimal.ofDigits digits
      some (if negative then -e else e, rest)
    else none

/-- An unsigned number with a fraction, an exponent or both. -/
def decimal? (cs : List Char) : Option (Decimal × List Char) := do
  let (whole, rest) ← wholeDigits? cs
  match rest with
  | '.' :: rest =>
    let (fraction, rest) ← digits? Char.isDigit rest
    let (e, rest) := (exponentPart? rest).getD (0, rest)
    some (⟨Decimal.ofDigits (whole ++ fraction), e - fraction.length⟩, rest)
  | rest =>
    let (e, rest) ← exponentPart? rest
    some (⟨Decimal.ofDigits whole, e⟩, rest)

/-- A number in a base of its own. -/
def based? (base : Nat) (cs : List Char) : Option (Int × List Char) := do
  let (digits, rest) ← digits? (fun c => (digitValue? base c).isSome) cs
  let n ← ofDigits? base digits
  some (n, rest)

/-- A number of 64 bits with a sign, and what follows it. -/
def integer? (cs : List Char) : Option (Value × List Char) := do
  let (n, rest) ←
    match cs with
    | '0' :: 'x' :: cs => based? 16 cs
    | '0' :: 'o' :: cs => based? 8 cs
    | '0' :: 'b' :: cs => based? 2 cs
    | cs => do
      let (negative, cs) := Decimal.spanSign cs
      let (digits, rest) ← wholeDigits? cs
      let n : Int := Decimal.ofDigits digits
      some (if negative then -n else n, rest)
  if -0x8000000000000000 ≤ n ∧ n < 0x8000000000000000 then some (.integer n, rest) else none

/-- The words for the numbers without digits. -/
def wordNumber? : List Char → Option (Float × List Char)
  | 'i' :: 'n' :: 'f' :: cs => (readNumber? "inf").map (·, cs)
  | 'n' :: 'a' :: 'n' :: cs => (readNumber? "nan").map (·, cs)
  | _ => none

/-- A floating-point number, and what follows it. A positive number beyond all doubles is refused,
a negative one is infinite. -/
def float? (cs : List Char) : Option (Value × List Char) :=
  let (negative, cs) := Decimal.spanSign cs
  let signed (x : Float) : Float := if negative then -x else x
  match wordNumber? cs with
  | some (x, rest) => some (.float (signed x), rest)
  | none => do
    let (d, rest) ← decimal? cs
    let x := d.toFloat
    if x.isInf ∧ ¬ negative then none else some (.float (signed x), rest)

/-- A date, a time or a number, and what follows it. -/
def number? (cs : List Char) : Option (Value × List Char) :=
  match moment? cs with
  | some rest => some (.moment, rest)
  | none => (float? cs).or (integer? cs)

end PortArbiter.Toml
