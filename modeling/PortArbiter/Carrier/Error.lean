/-!
# Carrier errors

Why a connection cannot be set up, or a frame cannot be read. A message that is held back is no
error.
-/

namespace PortArbiter

/-- What is wrong with a frame. -/
inductive FrameError where
  /-- The payload is too long for its length to be written down. -/
  | oversized (size : Nat)
  /-- The frame ends before its header does. -/
  | short (size : Nat)
  /-- The header announces another length than the frame has. -/
  | mismatch (announced carried : Nat)
deriving DecidableEq, Repr

def FrameError.reason : FrameError → String
  | .oversized size => s!"payload of {size} bytes exceeds u32"
  | .short size => s!"frame of {size} bytes is shorter than its header"
  | .mismatch announced carried =>
    s!"length prefix says {announced} bytes, frame carries {carried}"

/-- Why a carrier refuses. -/
inductive CarrierError where
  /-- The specification names no base carrier. -/
  | emptySpec
  /-- No base carrier of that name is known. -/
  | unknownCarrier (name : String)
  /-- No modifier of that name is known. -/
  | unknownModifier (name : String)
  /-- A carrier cannot work with the parameters of its route. -/
  | misconfigured (carrier reason : String)
  | frame (error : FrameError)
deriving DecidableEq, Repr

def CarrierError.message : CarrierError → String
  | .emptySpec => "Empty carrier specification"
  | .unknownCarrier name => s!"Unknown carrier: {name}"
  | .unknownModifier name => s!"Unknown modifier: {name}"
  | .misconfigured carrier reason => s!"Carrier '{carrier}' misconfigured: {reason}"
  | .frame error => s!"Framing error: {error.reason}"

end PortArbiter
