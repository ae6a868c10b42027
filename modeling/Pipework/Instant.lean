/-! Instants of universal time. -/

namespace Pipework

/-- Whole seconds since the start of 1970 and nanoseconds after them. During a leap second the
nanoseconds count on beyond a whole second. -/
structure Instant where
  seconds : Int
  nanos : Nat
  deriving DecidableEq, Repr, Inhabited

def Instant.toNanos (t : Instant) : Int := t.seconds * 1000000000 + t.nanos

end Pipework
