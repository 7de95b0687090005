import ModuleBoundary.Calendar

/-! Points in time, to the nanosecond. -/

set_option autoImplicit false

namespace ModuleBoundary

/-- Seconds since 1970-01-01T00:00:00Z without leap seconds, and nanoseconds into the
second. In a leap second, which prolongs the second before it, there are 10⁹ nanoseconds
or more. -/
structure Instant where
  seconds : Int
  nanoseconds : Nat
  deriving DecidableEq

namespace Instant

def order : Instant → Instant → Ordering :=
  compareLex (compareOn seconds) (compareOn nanoseconds)

/-- Strictly earlier. -/
def isBefore (first second : Instant) : Bool := (order first second).isLT

end Instant

end ModuleBoundary
