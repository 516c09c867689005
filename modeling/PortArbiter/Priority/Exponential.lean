/-!
# The exponential function

Decay curves are drawn with an exponential function on doubles. The rules of arbitration hold for
any such function; the machine's own one is `Exponential.machine`.
-/

namespace PortArbiter

/-- The exponential function that decay curves are drawn with. -/
class Exponential where
  exp : Float → Float

/-- The exponential function of the machine. -/
abbrev Exponential.machine : Exponential :=
  ⟨Float.exp⟩

end PortArbiter
