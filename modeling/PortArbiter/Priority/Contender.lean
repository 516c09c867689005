import PortArbiter.Priority.Exponential
/-!
# Contenders

What arbitration knows of one source that competes for a receiving port: its declared priority, how
fast that priority fades after a message, and when the source was last heard.

A contender heard at time `a` with level `p` and time constant `c` scores
`p * (1 - exp (5 * (t - a - c) / c))` at time `t`. That is a little below `p` at the arrival, zero
one time constant later, and zero from then on.
-/

namespace PortArbiter

/-- Which messages refresh the arrival of a contender. -/
inductive ArrivalPolicy where
  /-- Every message does, delivered or not. -/
  | observed
  /-- Only a message that is let through does. -/
  | admitted
deriving DecidableEq, Repr

namespace ArrivalPolicy

def token : ArrivalPolicy → String
  | .observed => "observed"
  | .admitted => "admitted"

def ofToken? (s : String) : Option ArrivalPolicy :=
  if s = "observed" then some .observed
  else if s = "admitted" then some .admitted
  else none

end ArrivalPolicy

/-- The priority of one source and the time of its last refreshing message. -/
structure Contender where
  source : String
  level : Float
  timeConstant : Float
  arrival? : Option Float := none
  /-- An inhibitory source holds weaker ones back and is never let through itself. -/
  inhibitory : Bool := false
  policy : ArrivalPolicy := .observed

namespace Contender

/-- The steepness of every decay curve. -/
def steepness : Float := 5

/-- Whether a contender takes part in the comparison of scores. -/
def decays (c : Contender) : Bool :=
  0 < c.timeConstant

def hear (c : Contender) (t : Float) : Contender :=
  { c with arrival? := some t }

/-- Whether a message refreshes the arrival before the decision on it is taken. -/
def refreshesAlways (c : Contender) : Bool :=
  c.inhibitory || c.policy = .observed

/-- A number with everything that is not above zero made zero. -/
def positivePart (x : Float) : Float :=
  if 0 < x then x else 0

/-- The score of a contender at time `t`: zero if it was never heard, if it has no positive time
constant, or once more than one time constant has passed. -/
def score [Exponential] (c : Contender) (t : Float) : Float :=
  match c.arrival? with
  | none => 0
  | some arrival =>
    let elapsed := t - arrival
    if ¬ 0 < c.timeConstant ∨ c.timeConstant < elapsed then 0
    else
      let exponent := steepness * (elapsed - c.timeConstant) / c.timeConstant
      positivePart (c.level * (1 - Exponential.exp exponent))

/-- Sample the score of a contender heard at time zero at `steps + 1` even points of
`[0, 1.2 * timeConstant]`, or of `[0, 1]` if it does not decay. -/
def curve [Exponential] (level timeConstant : Float) (steps : Nat) : List (Float × Float) :=
  let contender : Contender := { source := "curve", level, timeConstant, arrival? := some 0 }
  let steps := max steps 1
  let span := if 0 < timeConstant then timeConstant * 1.2 else 1
  (List.range (steps + 1)).map fun i =>
    let t := span * i.toFloat / steps.toFloat
    (t, contender.score t)

end Contender

end PortArbiter
