import Biz.Library.Time

/-!
# The clock of a database

The readings that a clock still has to give, none of them before the one that it
follows. Each reading is a whole number of microseconds after the zero time. A
reading is taken from the front, so a later state has the same clock further on.
-/

namespace Biz

open Time

/-- The readings to come. -/
structure Clock where
  reading : Nat → Instant
  monotone : Monotone reading
  positive : 0 < reading 0
  whole : ∀ n, reading n % microsecond = 0

namespace Clock

/-- The next reading. -/
def now (clock : Clock) : Instant := clock.reading 0

/-- The clock after its next reading was taken. -/
def tick (clock : Clock) : Clock where
  reading n := clock.reading (n + 1)
  monotone _ _ earlier := clock.monotone (Nat.add_le_add_right earlier 1)
  positive := lt_of_lt_of_le clock.positive (clock.monotone (Nat.zero_le 1))
  whole n := clock.whole (n + 1)

theorem now_le_tick (clock : Clock) : clock.now ≤ clock.tick.now := clock.monotone (Nat.zero_le 1)

theorem now_positive (clock : Clock) : 0 < clock.now := clock.positive

theorem now_whole (clock : Clock) : clock.now % microsecond = 0 := clock.whole 0

end Clock

end Biz
