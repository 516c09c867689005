import PortArbiter.Connection.Basic
import PortArbiter.Decimal.Layout
import PortArbiter.Scenario.Document
import PortArbiter.Scenario.Replay
import PortArbiter.Text.Inspection
/-!
# Inspection

The inspection texts of the values a maintainer meets: errors, groups, registrations, layers,
chains and catalogs.
-/

namespace PortArbiter

open Text

def PeerId.inspect (id : PeerId) : String :=
  applied "PeerId" (toString id.number)

def Registration.inspect (t : Registration) : String :=
  record "Registration" [("key", quoted t.key), ("id", t.id.inspect)]

def Group.inspect (g : Group) : String :=
  record "PriorityGroup"
    [("endpoint", quoted g.endpoint), ("members", toString g.members.length)]

def Registry.inspect (r : Registry) : String :=
  record "Election" [("groups", bracketed (r.keys.map quoted))]

def ArrivalPolicy.inspect : ArrivalPolicy → String
  | .observed => "Observed"
  | .admitted => "Admitted"

def Contender.inspect (c : Contender) : String :=
  record "PriorityState"
    [("source_name", quoted c.source),
      ("priority_level", NumberStyle.inspection.text c.level),
      ("time_constant", NumberStyle.inspection.text c.timeConstant),
      ("time_arrival", optional (c.arrival?.map NumberStyle.inspection.text)),
      ("inhibitory", truth c.inhibitory),
      ("arrival_policy", c.policy.inspect)]

def PriorityLayer.inspect (p : PriorityLayer) : String :=
  record "PriorityCarrier"
    [("state", p.contender.inspect),
      ("registration", optional (p.registration?.map Registration.inspect))]

def CarrierError.inspect : CarrierError → String
  | .emptySpec => "EmptySpec"
  | .unknownCarrier name => applied "UnknownCarrier" (quoted name)
  | .unknownModifier name => applied "UnknownModifier" (quoted name)
  | .misconfigured carrier reason =>
    record "Misconfigured" [("carrier", quoted carrier), ("reason", quoted reason)]
  | .frame error => applied "Frame" (quoted error.reason)

def FileError.inspect (e : FileError) : String :=
  record "Os" [("message", quoted e.reason)]

namespace Scenario

def Fault.inspect (fault : Fault) : String :=
  applied "Invalid" (quoted fault.reason)

def ReadError.inspect : ReadError → String
  | .unreadable error => applied "Io" error.inspect
  | .malformed => applied "Toml" (quoted "not the document of a scenario")
  | .invalid fault => fault.inspect

def ReplayError.inspect : ReplayError → String
  | .invalid fault => applied "Config" fault.inspect
  | .refused source error =>
    record "Refused" [("port", quoted source), ("error", error.inspect)]

end Scenario

variable {β μ : Type} [Transport β] [Stage μ]

def Chain.inspect (c : Chain β μ) : String :=
  record "Carrier" [("name", quoted c.name), ("describe", quoted c.describe)]

/-- The inspection text of a layer together with what it is wrapped around. -/
def Layer.inspectAround (outer : Layer μ) (inner : Chain β μ) : String :=
  record "ModifyingCarrier"
    [("modifier", quoted outer.describe), ("inner", quoted inner.describe)]

def Catalog.inspect (c : Catalog β μ) : String :=
  record "CarrierFactory"
    [("carriers", bracketed (c.carrierNames.map quoted)),
      ("modifiers", bracketed (c.modifierNames.map quoted))]

end PortArbiter
