namespace TokenMesh

/-!
# Virtual time

Instants and spans are natural numbers throughout: whole nanoseconds, an instant counted from an
arbitrary start.  What the outside world names in micro-, milli- or whole seconds is converted
here, and reports round down.
-/

namespace Time

/-- A span of whole microseconds. -/
def ofMicros (n : Nat) : Nat := n * 1000

/-- A span of whole milliseconds. -/
def ofMillis (n : Nat) : Nat := n * 1000000

/-- A span of whole seconds. -/
def ofSecs (n : Nat) : Nat := n * 1000000000

/-- The whole microseconds in a span. -/
def micros (t : Nat) : Nat := t / 1000

/-- The whole milliseconds in a span. -/
def millis (t : Nat) : Nat := t / 1000000

/-- The whole seconds in a span. -/
def secs (t : Nat) : Nat := t / 1000000000

/-- The nanoseconds of a span past its last whole second. -/
def nanos (t : Nat) : Nat := t % 1000000000

/-- The first whole millisecond that does not come before an instant. -/
def ceilMillis (t : Nat) : Nat := ofMillis (millis (t + 999999))

/-- No clock shows this instant or a later one: seconds are counted in 63 bits, from a quarter of
    an hour before the start. -/
def horizon : Nat := ofSecs ((1 <<< 63) - 900)

/-- No span is this long or longer: seconds are counted in 64 bits. -/
def spanLimit : Nat := ofSecs (1 <<< 64)

theorem horizon_lt_spanLimit : horizon < spanLimit := by decide

@[simp] theorem micros_ofMicros (n : Nat) : micros (ofMicros n) = n := by
  simp [micros, ofMicros]

@[simp] theorem millis_ofMillis (n : Nat) : millis (ofMillis n) = n := by
  simp [millis, ofMillis]

/-- Rounding up to a whole millisecond never goes back. -/
theorem le_ceilMillis (t : Nat) : t ≤ ceilMillis t := by
  simp only [ceilMillis, ofMillis, millis]; omega

@[simp] theorem ceilMillis_ofMillis (n : Nat) : ceilMillis (ofMillis n) = ofMillis n := by
  simp only [ceilMillis, ofMillis, millis]; omega

/-- A span is its whole seconds and the nanoseconds past them. -/
theorem ofSecs_secs_add_nanos (t : Nat) : ofSecs (secs t) + nanos t = t := by
  simp only [ofSecs, secs, nanos]; omega

end Time

end TokenMesh
