import PortArbiter.Spec
/-!
# Routes

Where a connection leads and what travels on it.
-/

namespace PortArbiter

/-- A payload or a frame. -/
abbrev Bytes := List UInt8

/-- A sending port, a receiving port and the specification of the carrier between them. -/
structure Route where
  sender : String
  receiver : String
  carrier : String
deriving DecidableEq, Repr

namespace Route

def text (r : Route) : String :=
  r.sender ++ " -> " ++ r.carrier ++ " -> " ++ r.receiver

/-- The parameters that a route configures its carrier with. -/
def spec (r : Route) : Spec :=
  Spec.parse r.carrier

end Route

/-- A message as the carriers of a connection see it. -/
structure Message where
  route : Route
  payload : Bytes

end PortArbiter
