import PortArbiter.Carrier.Error
import PortArbiter.Carrier.Route
import PortArbiter.Priority.Registry
/-!
# Priority layers

The modifier that makes a connection compete for its receiving port. Once configured it holds a
registration under the name of that port, and it lets a message pass exactly if the group of the
port does. Its parameters are

* `level`, the peak priority, zero unless it is a number above zero;
* `time`, the time constant in seconds, zero unless it is a number above zero;
* `inhibit` or `inhibitory`, which make the source inhibitory;
* `arrival`, one of the arrival policies, `observed` unless it is another one.
-/

namespace PortArbiter

/-- The priority modifier of one connection. -/
structure PriorityLayer where
  contender : Contender := { source := "", level := 0, timeConstant := 0 }
  registration? : Option Registration := none

namespace PriorityLayer

/-- The name that a specification calls priority layers by. -/
def name : String := "priority"

/-- A number, or zero if it is below zero. -/
def atLeastZero (x : Float) : Float :=
  if x < 0 then 0 else x

/-- The contender that a route describes. An inhibitory source needs a positive time constant. -/
def contenderOf (route : Route) : Except CarrierError Contender :=
  let spec := route.spec
  let level := atLeastZero (spec.number "level" 0)
  let timeConstant := atLeastZero (spec.number "time" 0)
  let inhibitory := spec.mentions "inhibit" || spec.mentions "inhibitory"
  let policy := ((spec.value? "arrival").bind ArrivalPolicy.ofToken?).getD .observed
  if inhibitory ∧ timeConstant ≤ 0 then
    .error (.misconfigured name s!"inhibitory source {route.sender} needs a positive 'time'")
  else .ok { source := route.sender, level, timeConstant, inhibitory, policy }

/-- Give up the registration, if there is one. -/
def release (p : PriorityLayer) (r : Registry) : Registry :=
  match p.registration? with
  | none => r
  | some t => r.release t

/-- Register under the receiving port of a route with the parameters of its specification. An
earlier registration is given up first; a refusal changes nothing. -/
def configure (p : PriorityLayer) (route : Route) (r : Registry) :
    Except CarrierError Unit × PriorityLayer × Registry :=
  if route.receiver = "" then
    (.error (.misconfigured name "route has no receiving port"), p, r)
  else
    match contenderOf route with
    | .error e => (.error e, p, r)
    | .ok contender =>
      let (t, r) := (p.release r).register route.receiver contender
      (.ok (), { contender, registration? := some t }, r)

/-- The decision of the group on a message that arrives at time `now`. -/
def receive [Exponential] (p : PriorityLayer) (now : Float) (r : Registry) : Verdict × Registry :=
  match p.registration? with
  | none => (.accepted, r)
  | some t => r.receive t now

def group? (p : PriorityLayer) (r : Registry) : Option Group :=
  p.registration?.map fun t => r.group t.group

def score [Exponential] (p : PriorityLayer) (r : Registry) (t : Float) : Float :=
  (p.registration?.bind fun reg => (r.group reg.group).score? reg.id t).getD 0

def standings [Exponential] (p : PriorityLayer) (r : Registry) (now : Float) : List Standing :=
  (p.group? r).elim [] (·.standings now)

end PriorityLayer

end PortArbiter
