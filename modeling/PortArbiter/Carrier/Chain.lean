import PortArbiter.Carrier.LengthPrefixed
import PortArbiter.Carrier.PriorityLayer
/-!
# Carrier chains

The carrier of a connection: a base carrier with layers of modifiers around it, the one declared
first innermost. Configuration goes from the base outwards and stops at the first refusal.
Decisions are asked from the outside inwards and stop at the first layer that holds the message
back. An inbound payload is transformed from the base outwards, an outbound one from the outside
inwards. Frames are the business of the base alone.
-/

namespace PortArbiter

/-- A layer of a chain: a priority layer, the only one that knows the registry, or a modifier of
kind `μ`. -/
inductive Layer (μ : Type) where
  | priority (p : PriorityLayer)
  | custom (m : μ)

namespace Layer

variable {μ : Type} [Stage μ]

/-- The name that a specification calls a layer by. -/
def name : Layer μ → String
  | .priority _ => PriorityLayer.name
  | .custom m => Stage.name m

def describe : Layer μ → String
  | .priority _ => PriorityLayer.name ++ "_carrier"
  | .custom m => Stage.describe m

/-- A new instance made after a prototype; a priority layer starts without a registration. -/
def fresh : Layer μ → Layer μ
  | .priority _ => .priority {}
  | .custom m => .custom (Stage.fresh m)

/-- Take over the parameters of a route, or refuse it. -/
def configure (route : Route) :
    Layer μ → Registry → Except CarrierError Unit × Layer μ × Registry
  | .priority p, r =>
    let (result, p, r) := p.configure route r
    (result, .priority p, r)
  | .custom m, r =>
    let (result, m) := Stage.configure route m
    (result, .custom m, r)

def acceptInbound [Exponential] (now : Float) (message : Message) :
    Layer μ → Registry → Bool × Layer μ × Registry
  | .priority p, r =>
    let (verdict, r) := p.receive now r
    (verdict = .accepted, .priority p, r)
  | .custom m, r =>
    let (accepted, m) := Stage.acceptInbound message m
    (accepted, .custom m, r)

def transformsInbound : Layer μ → Bool
  | .priority _ => false
  | .custom m => Stage.transformsInbound m

def transformInbound (payload : Bytes) : Layer μ → Bytes × Layer μ
  | .priority p => (payload, .priority p)
  | .custom m => (Stage.transformInbound payload m).map id .custom

def acceptOutbound (payload : Bytes) : Layer μ → Bool × Layer μ
  | .priority p => (true, .priority p)
  | .custom m => (Stage.acceptOutbound payload m).map id .custom

def transformsOutbound : Layer μ → Bool
  | .priority _ => false
  | .custom m => Stage.transformsOutbound m

def transformOutbound (payload : Bytes) : Layer μ → Bytes × Layer μ
  | .priority p => (payload, .priority p)
  | .custom m => (Stage.transformOutbound payload m).map id .custom

/-- Give up the registration of a priority layer. -/
def release : Layer μ → Registry → Registry
  | .priority p, r => p.release r
  | .custom _, r => r

end Layer

/-- A base carrier with layers around it. -/
inductive Chain (β μ : Type) where
  | base (b : Base β)
  | wrap (outer : Layer μ) (inner : Chain β μ)

namespace Chain

variable {β μ : Type} [Transport β] [Stage μ]

/-- The layers of a chain, the innermost first. -/
def layers : Chain β μ → List (Layer μ)
  | .base _ => []
  | .wrap outer inner => inner.layers ++ [outer]

def bottom : Chain β μ → Base β
  | .base b => b
  | .wrap _ inner => inner.bottom

/-- The name of the outermost stage. -/
def name : Chain β μ → String
  | .base b => Stage.name b
  | .wrap outer _ => outer.name

/-- What the outermost stage says of itself. -/
def describe : Chain β μ → String
  | .base b => Stage.describe b
  | .wrap outer _ => outer.describe

/-- A chain with a layer around it needs a companion on the other side. -/
def flags : Chain β μ → Flags
  | .base b => Transport.flags b
  | .wrap _ inner => { inner.flags with requiresCompanion := true }

/-- Whether the outermost stage is a modifier. -/
def isModified : Chain β μ → Bool
  | .base _ => false
  | .wrap _ _ => true

/-- A new chain made after this one, stage by stage. -/
def fresh : Chain β μ → Chain β μ
  | .base b => .base (Stage.fresh b)
  | .wrap outer inner => .wrap outer.fresh inner.fresh

/-- Configure the stages from the base outwards, up to the first that refuses. -/
def configure (route : Route) :
    Chain β μ → Registry → Except CarrierError Unit × Chain β μ × Registry
  | .base b, r =>
    let (result, b) := Stage.configure route b
    (result, .base b, r)
  | .wrap outer inner, r =>
    match inner.configure route r with
    | (.error e, inner, r) => (.error e, .wrap outer inner, r)
    | (.ok (), inner, r) =>
      let (result, outer, r) := outer.configure route r
      (result, .wrap outer inner, r)

/-- Ask the stages for an inbound message from the outside inwards, up to the first that holds it
back. -/
def acceptInbound [Exponential] (now : Float) (message : Message) :
    Chain β μ → Registry → Bool × Chain β μ × Registry
  | .base b, r =>
    let (accepted, b) := Stage.acceptInbound message b
    (accepted, .base b, r)
  | .wrap outer inner, r =>
    match outer.acceptInbound now message r with
    | (false, outer, r) => (false, .wrap outer inner, r)
    | (true, outer, r) =>
      let (accepted, inner, r) := inner.acceptInbound now message r
      (accepted, .wrap outer inner, r)

/-- Whether some stage transforms inbound payloads. -/
def transformsInbound : Chain β μ → Bool
  | .base b => Stage.transformsInbound b
  | .wrap outer inner => outer.transformsInbound || inner.transformsInbound

/-- Transform an inbound payload from the base outwards. -/
def transformInbound (payload : Bytes) : Chain β μ → Bytes × Chain β μ
  | .base b => (Stage.transformInbound payload b).map id .base
  | .wrap outer inner =>
    let (payload, inner) := inner.transformInbound payload
    let (payload, outer) := outer.transformInbound payload
    (payload, .wrap outer inner)

/-- Ask the stages for an outbound payload from the outside inwards, up to the first that refuses
it. -/
def acceptOutbound (payload : Bytes) : Chain β μ → Bool × Chain β μ
  | .base b => (Stage.acceptOutbound payload b).map id .base
  | .wrap outer inner =>
    match outer.acceptOutbound payload with
    | (false, outer) => (false, .wrap outer inner)
    | (true, outer) =>
      let (accepted, inner) := inner.acceptOutbound payload
      (accepted, .wrap outer inner)

/-- Whether some stage transforms outbound payloads. -/
def transformsOutbound : Chain β μ → Bool
  | .base b => Stage.transformsOutbound b
  | .wrap outer inner => outer.transformsOutbound || inner.transformsOutbound

/-- Transform an outbound payload from the outside inwards. -/
def transformOutbound (payload : Bytes) : Chain β μ → Bytes × Chain β μ
  | .base b => (Stage.transformOutbound payload b).map id .base
  | .wrap outer inner =>
    let (payload, outer) := outer.transformOutbound payload
    let (payload, inner) := inner.transformOutbound payload
    (payload, .wrap outer inner)

/-- Append the frame of a payload to what is already written. -/
def writeFrame (payload written : Bytes) : Chain β μ → Except CarrierError Bytes × Chain β μ
  | .base b =>
    let (frame, b) := Transport.frame payload b
    (frame.map (written ++ ·), .base b)
  | .wrap outer inner => (inner.writeFrame payload written).map id (.wrap outer)

/-- Take the payload out of one frame. -/
def readFrame (frame : Bytes) : Chain β μ → Except CarrierError Bytes × Chain β μ
  | .base b => (Transport.unframe frame b).map id .base
  | .wrap outer inner => (inner.readFrame frame).map id (.wrap outer)

/-- Give up all registrations of a chain, from the base outwards. -/
def release : Chain β μ → Registry → Registry
  | .base _, r => r
  | .wrap outer inner, r => outer.release (inner.release r)

end Chain

end PortArbiter
