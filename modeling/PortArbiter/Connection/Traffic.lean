/-!
# Traffic

What a connection has counted so far. The counters are 64-bit words and wrap around.
-/

namespace PortArbiter

/-- The counters of one connection. -/
structure Traffic where
  delivered : UInt64 := 0
  bytes : UInt64 := 0
  dropped : UInt64 := 0
  errors : UInt64 := 0
deriving DecidableEq, Repr

namespace Traffic

def recordDelivered (t : Traffic) (bytes : UInt64) : Traffic :=
  { t with delivered := t.delivered + 1, bytes := t.bytes + bytes }

def recordDropped (t : Traffic) : Traffic :=
  { t with dropped := t.dropped + 1 }

def recordError (t : Traffic) : Traffic :=
  { t with errors := t.errors + 1 }

def dropRatio (t : Traffic) : Float :=
  let total := t.delivered + t.dropped
  if 0 < total then t.dropped.toFloat / total.toFloat else 0

end Traffic

end PortArbiter
