import PortArbiter.Carrier.Catalog
import PortArbiter.Connection.Traffic
/-!
# Connections

A route and its configured chain. A connection that is refused, closed or dropped gives up every
registration that its chain made.
-/

namespace PortArbiter

variable {β μ : Type} [Transport β] [Stage μ]

/-- Build and configure the chain of one side of a route. -/
def Catalog.install (c : Catalog β μ) (side : Direction) (route : Route) (r : Registry) :
    Except CarrierError (Chain β μ) × Registry :=
  match c.build route.carrier side with
  | .error e => (.error e, r)
  | .ok chain =>
    match chain.configure route r with
    | (.error e, chain, r) => (.error e, chain.release r)
    | (.ok (), chain, r) => (.ok chain, r)

/-- The receiving side of a route. A closed connection has no chain. -/
structure Inbound (β μ : Type) where
  route : Route
  chain? : Option (Chain β μ)
  traffic : Traffic := {}

namespace Inbound

/-- Set up the receiving side of a route. -/
def connect (c : Catalog β μ) (route : Route) (r : Registry) :
    Except CarrierError (Inbound β μ) × Registry :=
  let (chain, r) := c.install .recv route r
  (chain.map fun chain => { route, chain? := some chain }, r)

def isOpen (c : Inbound β μ) : Bool :=
  c.chain?.isSome

/-- Offer a payload to the chain. What the receiver gets is the payload after its transformation,
or nothing if the chain holds it back or the connection is closed. -/
def deliver [Exponential] (c : Inbound β μ) (now : Float) (payload : Bytes) (r : Registry) :
    Option Bytes × Inbound β μ × Registry :=
  match c.chain? with
  | none => (none, { c with traffic := c.traffic.recordDropped }, r)
  | some chain =>
    match chain.acceptInbound now ⟨c.route, payload⟩ r with
    | (false, chain, r) =>
      (none, { c with chain? := some chain, traffic := c.traffic.recordDropped }, r)
    | (true, chain, r) =>
      let (payload, chain) :=
        if chain.transformsInbound then chain.transformInbound payload else (payload, chain)
      let traffic := c.traffic.recordDelivered (UInt64.ofNat payload.length)
      (some payload, { c with chain? := some chain, traffic }, r)

/-- Take the payload out of a frame and offer it to the chain. -/
def receiveFrame [Exponential] (c : Inbound β μ) (now : Float) (frame : Bytes) (r : Registry) :
    Except CarrierError (Option Bytes) × Inbound β μ × Registry :=
  match c.chain? with
  | none => (.ok none, { c with traffic := c.traffic.recordDropped }, r)
  | some chain =>
    match chain.readFrame frame with
    | (.error e, chain) =>
      (.error e, { c with chain? := some chain, traffic := c.traffic.recordError }, r)
    | (.ok payload, chain) =>
      let (delivered, c, r) := { c with chain? := some chain }.deliver now payload r
      (.ok delivered, c, r)

/-- Give up the chain and its registrations. -/
def close (c : Inbound β μ) (r : Registry) : Inbound β μ × Registry :=
  match c.chain? with
  | none => (c, r)
  | some chain => ({ c with chain? := none }, chain.release r)

end Inbound

/-- The sending side of a route. -/
structure Outbound (β μ : Type) where
  route : Route
  chain : Chain β μ

namespace Outbound

/-- Set up the sending side of a route. -/
def connect (c : Catalog β μ) (route : Route) (r : Registry) :
    Except CarrierError (Outbound β μ) × Registry :=
  let (chain, r) := c.install .send route r
  (chain.map fun chain => { route, chain }, r)

/-- The frame of a payload, or nothing if the chain refuses it. -/
def encode (c : Outbound β μ) (payload : Bytes) :
    Except CarrierError (Option Bytes) × Outbound β μ :=
  match c.chain.acceptOutbound payload with
  | (false, chain) => (.ok none, { c with chain })
  | (true, chain) =>
    let (payload, chain) :=
      if chain.transformsOutbound then chain.transformOutbound payload else (payload, chain)
    let (frame, chain) := chain.writeFrame payload []
    (frame.map some, { c with chain })

def release (c : Outbound β μ) (r : Registry) : Registry :=
  c.chain.release r

end Outbound

end PortArbiter
