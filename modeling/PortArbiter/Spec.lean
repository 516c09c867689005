import PortArbiter.Decimal.Reader
import PortArbiter.Text.Blank
/-!
# Carrier specifications

A connection names its carrier by a text such as `tcp+recv.priority+level.15+inhibit`: a base
carrier, then parameters behind `+` signs. A parameter is a key with a value behind its first
point, or a bare key. Blanks around each piece do not count and empty parameters are skipped, so
every text is a specification.
-/

namespace PortArbiter

/-- The side of a connection that a modifier is installed on. -/
inductive Direction where
  | recv
  | send
deriving DecidableEq, Repr

/-- The key that lists the modifiers of a side. -/
def Direction.token : Direction → String
  | .recv => "recv"
  | .send => "send"

/-- One parameter of a specification; a bare key has no value. -/
structure Parameter where
  key : String
  value? : Option String
deriving DecidableEq, Repr

namespace Parameter

/-- Split a piece at its first point. -/
def ofChars (cs : List Char) : Parameter :=
  match cs.dropWhile (· ≠ '.') with
  | [] => ⟨String.ofList cs, none⟩
  | _ :: value => ⟨String.ofList (cs.takeWhile (· ≠ '.')), some (String.ofList value)⟩

def text (p : Parameter) : String :=
  match p.value? with
  | none => p.key
  | some value => p.key ++ "." ++ value

end Parameter

/-- A base carrier and its parameters in the order of declaration. -/
structure Spec where
  base : String
  parameters : List Parameter
deriving DecidableEq, Repr

namespace Spec

/-- Cut a text at every separator. -/
def pieces (separator : Char) : List Char → List (List Char)
  | [] => [[]]
  | c :: cs =>
    let rest := pieces separator cs
    if c = separator then [] :: rest
    else (c :: rest.headD []) :: rest.tail

def parse (s : String) : Spec :=
  let tokens := (pieces '+' s.toList).map Text.trim
  { base := String.ofList (tokens.headD [])
    parameters := (tokens.tail.filter (· ≠ [])).map Parameter.ofChars }

def text (s : Spec) : String :=
  s.base ++ String.join (s.parameters.map fun p => "+" ++ p.text)

/-- The value of a key. The last parameter of that key decides, also when it has no value. -/
def value? (s : Spec) (key : String) : Option String :=
  (s.parameters.findRev? (·.key = key)).bind Parameter.value?

def mentions (s : Spec) (key : String) : Bool :=
  s.parameters.any (·.key = key)

/-- The value of a key as a finite number, or `fallback` when there is no such number. -/
def number (s : Spec) (key : String) (fallback : Float) : Float :=
  match (s.value? key).bind readNumber? with
  | none => fallback
  | some x => if x.isFinite then x else fallback

/-- The modifiers asked for on one side, in the order of declaration. -/
def modifiers (s : Spec) (side : Direction) : List String :=
  (s.parameters.filter (·.key = side.token)).filterMap Parameter.value?

end Spec

end PortArbiter
