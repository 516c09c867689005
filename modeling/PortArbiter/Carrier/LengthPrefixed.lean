import PortArbiter.Carrier.Stage
/-!
# Length-prefixed framing

The base carrier of the usual transports. It lets every message pass, and a frame is the length of
the payload in four bytes, the most significant one first, and then the payload.
-/

namespace PortArbiter

/-- A transport with length-prefixed frames. -/
structure LengthPrefixed where
  name : String
  flags : Flags := {}
deriving DecidableEq, Repr

namespace LengthPrefixed

def stream (name : String) : LengthPrefixed :=
  ⟨name, { supportsReply := true }⟩

def datagram (name : String) : LengthPrefixed :=
  ⟨name, { connectionless := true, push := true }⟩

/-- The four bytes of a length, the most significant first. -/
def header (size : Nat) : Bytes :=
  [UInt8.ofNat (size / 0x1000000), UInt8.ofNat (size / 0x10000), UInt8.ofNat (size / 0x100),
    UInt8.ofNat size]

/-- The length that four bytes announce. -/
def announced (b₃ b₂ b₁ b₀ : UInt8) : Nat :=
  0x1000000 * b₃.toNat + 0x10000 * b₂.toNat + 0x100 * b₁.toNat + b₀.toNat

def frame (payload : Bytes) : Except FrameError Bytes :=
  if payload.length < 0x100000000 then .ok (header payload.length ++ payload)
  else .error (.oversized payload.length)

/-- Take the payload out of exactly one frame. -/
def unframe : Bytes → Except FrameError Bytes
  | b₃ :: b₂ :: b₁ :: b₀ :: body =>
    let size := announced b₃ b₂ b₁ b₀
    if body.length = size then .ok body else .error (.mismatch size body.length)
  | frame => .error (.short frame.length)

end LengthPrefixed

instance : Transport LengthPrefixed where
  name := LengthPrefixed.name
  fresh t := t
  flags := LengthPrefixed.flags
  frame payload t := ((LengthPrefixed.frame payload).mapError .frame, t)
  unframe frame t := ((LengthPrefixed.unframe frame).mapError .frame, t)

/-- The base carriers of a chain: the usual transports, and those of kind `β`. -/
inductive Base (β : Type) where
  | lengthPrefixed (t : LengthPrefixed)
  | custom (b : β)

namespace Base

variable {α β : Type} [Transport β]

/-- Run the step of the carrier at hand and keep its new state. -/
def step (onUsual : LengthPrefixed → α × LengthPrefixed) (onCustom : β → α × β) :
    Base β → α × Base β
  | .lengthPrefixed t => (onUsual t).map id .lengthPrefixed
  | .custom b => (onCustom b).map id .custom

/-- Ask the carrier at hand. -/
def ask (onUsual : LengthPrefixed → α) (onCustom : β → α) : Base β → α
  | .lengthPrefixed t => onUsual t
  | .custom b => onCustom b

instance : Transport (Base β) where
  name := ask Stage.name Stage.name
  describe := ask Stage.describe Stage.describe
  fresh
    | .lengthPrefixed t => .lengthPrefixed (Stage.fresh t)
    | .custom b => .custom (Stage.fresh b)
  configure route := step (Stage.configure route) (Stage.configure route)
  acceptInbound m := step (Stage.acceptInbound m) (Stage.acceptInbound m)
  transformsInbound := ask Stage.transformsInbound Stage.transformsInbound
  transformInbound p := step (Stage.transformInbound p) (Stage.transformInbound p)
  acceptOutbound p := step (Stage.acceptOutbound p) (Stage.acceptOutbound p)
  transformsOutbound := ask Stage.transformsOutbound Stage.transformsOutbound
  transformOutbound p := step (Stage.transformOutbound p) (Stage.transformOutbound p)
  flags := ask Transport.flags Transport.flags
  frame p := step (Transport.frame p) (Transport.frame p)
  unframe f := step (Transport.unframe f) (Transport.unframe f)

end Base

end PortArbiter
