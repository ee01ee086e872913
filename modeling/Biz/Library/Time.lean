import Mathlib

/-!
# Instants and durations

An instant is the number of nanoseconds since the zero time of Go's `time.Time`,
the first of January of year one, UTC; a duration is a number of nanoseconds.
Time zones do not change an instant, so `UTC()` is the identity here, and the
64-bit range of the Go types is not modelled.
-/

namespace Biz.Time

abbrev Instant := Int
abbrev Duration := Int

def microsecond : Int := 1000
def second : Int := 1000000000
def minute : Int := 60 * second
def hour : Int := 60 * minute

/-- `Time.IsZero`. -/
def isZero (instant : Instant) : Bool := instant = 0

end Biz.Time
