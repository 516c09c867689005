import PortArbiter.Carrier.Error
import PortArbiter.Carrier.Route
/-!
# Stages

A message passes the stages of its carrier one after another: the modifiers and the base carrier
below them. Each stage decides on the message and may change it, and each keeps a state of its own.
What a stage does not define, it leaves alone.
-/

namespace PortArbiter

/-- What a carrier can do besides framing. -/
structure Flags where
  requiresCompanion : Bool := false
  connectionless : Bool := false
  push : Bool := false
  textMode : Bool := false
  requiresAck : Bool := false
  supportsReply : Bool := false
deriving DecidableEq, Repr

/-- A stage in the way of a message; `σ` is its state, its parameters included. -/
class Stage (σ : Type) where
  name : σ → String
  describe : σ → String := fun s => name s ++ "_carrier"
  /-- A new instance made after a prototype. -/
  fresh : σ → σ
  /-- Take over the parameters of a route, or refuse it. -/
  configure : Route → σ → Except CarrierError Unit × σ := fun _ s => (.ok (), s)
  acceptInbound : Message → σ → Bool × σ := fun _ s => (true, s)
  transformsInbound : σ → Bool := fun _ => false
  transformInbound : Bytes → σ → Bytes × σ := fun payload s => (payload, s)
  acceptOutbound : Bytes → σ → Bool × σ := fun _ s => (true, s)
  transformsOutbound : σ → Bool := fun _ => false
  transformOutbound : Bytes → σ → Bytes × σ := fun payload s => (payload, s)

/-- A base carrier: the stage that puts payloads into frames. -/
class Transport (β : Type) extends Stage β where
  flags : β → Flags := fun _ => {}
  /-- The frame of a payload. -/
  frame : Bytes → β → Except CarrierError Bytes × β
  /-- The payload of a frame. -/
  unframe : Bytes → β → Except CarrierError Bytes × β

end PortArbiter
